/-
# Operations that nothing comes in between of

A rehearsal divides an operation into moves, so that anything else may come in between
(`Host.Scene.rehearse`).  A host carries an operation out as a whole (`Host.operate`).  The two
agree where nothing comes in between: the same calls are made and answered in the same way, and the
host is the same in the end (`Host.exists_rehearse_operate`).

The moves settle the traffic after each call, and the host settles it once.  What is on record of
the traffic makes no difference to a call (`Host.call_forget`), so each call starts from what was
settled before (`Host.traffic_settle`), and only what is settled last matters.
-/

import GattServer.Proofs.Rehearsals

namespace GattServer

/-- The traffic with nothing on record. -/
def Traffic.forget (b : Traffic) : Traffic := { b with events := [] }

namespace Host

variable {h : Host} {a : Hosted} {i : AppId} {act : Act} {app : Application} {b t : Traffic}
  {pending : AppId → Option Pending}

/-! ### Traffic that is settled -/

/-- What is on record makes no difference to a call. -/
theorem call_forget (h : Host) (a : Hosted) (c : Call) (b : Traffic) :
    ((h.busOf a).call c b.forget).1 = ((h.busOf a).call c b).1 ∧
      ((h.busOf a).call c b.forget).2.forget = ((h.busOf a).call c b).2.forget := by
  unfold busOf
  split_ifs
  · simp only [Traffic.sharedBus, Traffic.tryCarry, Traffic.forget]
    split <;> exact ⟨rfl, rfl⟩
  · exact ⟨rfl, rfl⟩

theorem warn_forget (h : Host) (a : Hosted) (w : Warning) (b : Traffic) :
    ((h.busOf a).warn w b).forget = b.forget := by
  unfold busOf
  split_ifs <;> rfl

/-- What is on record is not settled. -/
theorem settle_congr (h : Host) (hforget : b.forget = t.forget) : h.settle b = h.settle t := by
  have hsettle : h.settle b.forget = h.settle t.forget := congrArg h.settle hforget
  exact hsettle

/-- Where nothing has happened, there is nothing to settle. -/
theorem settle_traffic (h : Host) (n : Nat) : h.settle (h.traffic n) = h := by
  show { h.setLink n (h.link n) with faults := h.faults } = h
  rw [setLink_link]

/-- **Only what is settled last matters**, to the host and to the state of an application. -/
theorem settle_setState (linked : b.link < h.links.length) (hlink : t.link = b.link)
    (app : Application) :
    ((h.settle b).setState i a app).settle t = (h.settle t).setState i a app := by
  have hsettle : (h.settle b).settle t = h.settle t := by
    have hafter := @settle_link h b.link b
    rw [if_pos ⟨rfl, linked⟩] at hafter
    rw [settle, hlink, hafter, settle, settle, hlink]
    simp only [setLink, List.set_set]
  exact congrArg (setState · i a app) hsettle

/-- **A call starts from what was settled** before. -/
theorem traffic_settle (linked : b.link < h.links.length) (app : Application) :
    ((h.settle b).setState i a app).traffic b.link = b.forget := by
  have htraffic : ((h.settle b).setState i a app).traffic b.link = (h.settle b).traffic b.link :=
    rfl
  rw [htraffic, traffic, settle_link, if_pos ⟨rfl, linked⟩]
  rfl

theorem app?_setState (held : h.app? i = some a) (app : Application) :
    ((h.settle b).setState i a app).app? i =
      some { a with application := { app with created := a.application.created } } := by
  obtain ⟨hosted, alive⟩ := app?_eq_some.1 held
  have hlength := (List.getElem?_eq_some_iff.1 hosted).1
  exact app?_eq_some.2 ⟨List.getElem?_set_self hlength, alive⟩

/-! ### Move by move -/

/-- A scene in the middle of an operation: the application is in some state, there has been some
traffic, and something is left to do. -/
def midway (h : Host) (pending : AppId → Option Pending) (i : AppId) (a : Hosted) (act : Act)
    (app : Application) (b : Traffic) (x : Script Application (Answer × Application)) : Scene where
  host := (h.settle b).setState i a app
  pending := Function.update pending i (some ⟨act, x⟩)

variable {app' : Application} {c : Call} {next : Answer → Script Application (Answer × Application)}
  {x : Script Application (Answer × Application)}

theorem setState_setState (h : Host) (i : AppId) (a : Hosted) (app app' : Application) :
    (h.setState i a app).setState i
        { a with application := { app with created := a.application.created } } app' =
      h.setState i a app' := by
  simp only [setState, setApp, List.set_set]

theorem proceed_done (held : h.app? i = some a) (r : Answer) :
    (h.midway pending i a act app b (.done (r, app'))).proceed i =
      ⟨(h.settle b).setState i a app', Function.update pending i none⟩ := by
  simp only [Scene.proceed, midway, app?_setState held, Function.update_self, Scene.setPending,
    Function.update_idem, setState_setState]

theorem proceed_warn (held : h.app? i = some a) (w : Warning) :
    (h.midway pending i a act app b (.warn w x)).proceed i =
      h.midway pending i a act app ((h.busOf a).warn w b) x := by
  have hsettle := h.settle_congr (h.warn_forget a w b)
  simp only [Scene.proceed, midway, app?_setState held, Function.update_self, Scene.setPending,
    Function.update_idem, hsettle]

theorem proceed_call (held : h.app? i = some a) :
    (h.midway pending i a act app b (.call app' c next)).proceed i =
      h.midway pending i a act app' b (.call app' c next) := by
  simp only [Scene.proceed, midway, app?_setState held, Function.update_self, setState_setState]

theorem carry_call (held : h.app? i = some a) (linked : b.link < h.links.length)
    (hlink : b.link = a.link) :
    (h.midway pending i a act app' b (.call app' c next)).carry i =
      ([⟨a.link, i, act, ⟨app', c, ((h.busOf a).call c b).1⟩⟩],
        h.midway pending i a act app' ((h.busOf a).call c b).2
          (next ((h.busOf a).call c b).1)) := by
  obtain ⟨hanswer, hforget⟩ := h.call_forget a c b
  have htraffic := @traffic_settle h a i b linked app'
  rw [hlink] at htraffic
  have hbus : ((h.settle b).setState i a app').busOf
      { a with application := { app' with created := a.application.created } } = h.busOf a := rfl
  have hsettle : ((h.settle b).setState i a app').settle ((h.busOf a).call c b.forget).2 =
      (h.settle ((h.busOf a).call c b).2).setState i a app' := by
    rw [settle_setState linked ((h.faithful_busOf a).link c b.forget), h.settle_congr hforget]
  simp only [Scene.carry, midway, app?_setState held, Function.update_self, Scene.setPending,
    Function.update_idem, htraffic, hbus, hanswer, hsettle]

/-- **What is left of an operation** is gone through move by move as the bus goes through it. -/
theorem exists_rehearse (held : h.app? i = some a) (linked : a.link < h.links.length)
    (pending : AppId → Option Pending) (act : Act) (app : Application)
    (x : Script Application (Answer × Application)) (hlink : b.link = a.link) :
    ∃ moves, (∀ m ∈ moves, m = .proceed i ∨ m = .carry i) ∧
      (h.midway pending i a act app b x).rehearse moves =
        ((x.record (h.busOf a) b).1.map (Entry.mk a.link i act),
          ⟨(h.settle (x.record (h.busOf a) b).2.2).setState i a (x.record (h.busOf a) b).2.1.2,
            Function.update pending i none⟩) := by
  have faithful := h.faithful_busOf a
  induction x generalizing app b with
  | done result =>
    refine ⟨[.proceed i], by simp, ?_⟩
    rw [Scene.rehearse, Scene.move, proceed_done held]
    rfl
  | warn w next ih =>
    obtain ⟨moves, hmoves, hrest⟩ := ih app ((faithful.warnLink w b).trans hlink)
    refine ⟨.proceed i :: moves, List.forall_mem_cons.2 ⟨Or.inl rfl, hmoves⟩, ?_⟩
    rw [Scene.rehearse, Scene.move, proceed_warn held, hrest]
    rfl
  | call app' c next ih =>
    obtain ⟨moves, hmoves, hrest⟩ := ih _ app' ((faithful.link c b).trans hlink)
    refine ⟨.proceed i :: .carry i :: moves, ?_, ?_⟩
    · exact List.forall_mem_cons.2 ⟨Or.inl rfl, List.forall_mem_cons.2 ⟨Or.inr rfl, hmoves⟩⟩
    · rw [Scene.rehearse, Scene.move, proceed_call held, Scene.rehearse, Scene.move,
        carry_call held (hlink.trans_lt linked) hlink, hrest]
      rfl

/-- To create a service is one move, and the host does the same as a whole. -/
theorem operate_create {properties : ServiceProperties} {advertised : Bool}
    (held : h.app? i = some a) :
    h.exchanges i (Act.create properties advertised).operation = [] ∧ ∃ r events,
      h.operate i (Act.create properties advertised).operation =
        some (r, h.turn (.createService i properties advertised), events) := by
  have hosted := (app?_eq_some.1 held).1
  rw [exchanges, operate, turn, createService, held]
  cases hnew : a.application.createService properties advertised with
  | error e =>
    have hscript : a.application.script (Act.create properties advertised).operation =
        .done (.error e, a.application) := by
      simp [Act.operation, hnew]
    simp [hscript, Script.record, Script.run, settle_traffic, setApp_self hosted, hnew]
  | ok created =>
    have hscript : a.application.script (Act.create properties advertised).operation =
        .done (.ok (), created.2) := by
      simp [Act.operation, hnew]
    simp [hscript, Script.record, Script.run, settle_traffic, hnew]

/-- **An operation that nothing comes in between of** is what the host makes of it as a whole. -/
theorem exists_rehearse_operate {s : Scene} (held : s.host.app? i = some a)
    (linked : a.link < s.host.links.length) (idle : s.pending i = none) (act : Act) :
    ∃ moves r h events, (∀ m ∈ moves, m = .proceed i ∨ m = .carry i) ∧
      s.host.operate i act.operation = some (r, h, events) ∧
      s.rehearse (.start i act :: moves) =
        ((s.host.exchanges i act.operation).map (Entry.mk a.link i act), { s with host := h }) := by
  by_cases hcreates : act.Creates
  · cases act with
    | create properties advertised =>
      obtain ⟨hexchanges, r, events, hdone⟩ := operate_create held
      refine ⟨[], r, _, events, by simp, hdone, ?_⟩
      rw [hexchanges]
      rfl
    | _ => exact hcreates.elim
  have hself : (s.host.settle (s.host.traffic a.link)).setState i a a.application = s.host := by
    rw [settle_traffic]
    exact setApp_self (app?_eq_some.1 held).1
  have hstart : s.start i act = s.host.midway s.pending i a act a.application
      (s.host.traffic a.link) (a.application.script act.operation) := by
    rw [midway, hself]
    unfold Scene.start
    split
    · exact absurd trivial hcreates
    · rw [held, idle]
      rfl
  have htraffic : (s.host.traffic a.link).link = a.link := rfl
  obtain ⟨moves, hmoves, hrest⟩ := exists_rehearse held linked s.pending act a.application
    (a.application.script act.operation) htraffic
  have hcreated := Application.performs_created hcreates
    (Application.performs_record (s.host.busOf a) a.application act.operation
      (s.host.traffic a.link))
  rw [Script.record_snd] at hrest hcreated
  have hpending : Function.update s.pending i none = s.pending := by
    rw [← idle, Function.update_eq_self]
  have hexchanges : s.host.exchanges i act.operation =
      ((a.application.script act.operation).record (s.host.busOf a) (s.host.traffic a.link)).1 := by
    rw [exchanges, held]
  refine ⟨moves, _, _, _, hmoves, by rw [operate, held]; rfl, ?_⟩
  rw [Scene.rehearse, Scene.move, hstart, hrest, hexchanges, hpending, setState, ← hcreated]
  rfl

end Host
end GattServer
