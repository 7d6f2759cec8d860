/-
# One advertiser

All applications export their advertisement at the same path, so a bus that refuses to export what
it holds lets one of them advertise at a time.  Here any number of applications share such a bus.
Their calls come in any order, also in the midst of each other's operations, and any call may fail.

Of applications that are between operations at most one is advertising, and its advertisement is
exported still.  Starting to advertise with another one fails at the export and changes nothing.
And an application unregisters or withdraws the advertisement only while the one that is exported is
its own (`Weave.one_advertiser`).

That is so because each application, taken alone, is advertising only while its own calls say that
its advertisement is exported, and makes calls to end it only then (`Application.owns_of_history`).
Of several applications at most one can be in that position, for the next export is accepted only
after the withdrawal (`Weave.custody`).
-/

import GattServer.Proofs.Rounds

namespace GattServer

/-- The advertisement, as an object on the bus. -/
def advertisementPair : ObjectPath × ObjectKind := (advertisementPath, .advertisement)

/-- A call that ends advertising, or a part of it. -/
def Call.Ends : Call → Prop
  | .unregisterAdvertisement _ _ => True
  | .withdrawObject _ kind => kind = .advertisement
  | _ => False

theorem Call.Ends.isAdvertising {c : Call} (h : c.Ends) : c.isAdvertising = true := by
  cases c with
  | unregisterAdvertisement => rfl
  | withdrawObject path kind => exact decide_eq_true h
  | _ => exact h.elim

theorem Call.isAdvertising_of_object? {c : Call} (h : c.object? = some advertisementPair) :
    c.isAdvertising = true := by
  cases c with
  | exportObject path object => exact decide_eq_true (Prod.mk.inj (Option.some.inj h)).2
  | withdrawObject path kind => exact decide_eq_true (Prod.mk.inj (Option.some.inj h)).2
  | _ => cases h

/-! ### What an application may end -/

section Rightful

variable {σ : Type} {H : Held} {t u : List (Exchange σ)}

/-- Calls that end advertising are made only while the advertisement is among the objects held. -/
def Rightful : Held → List (Exchange σ) → Prop
  | _, [] => True
  | H, e :: t => (e.call.Ends → advertisementPair ∈ H) ∧ Rightful (e.after H) t

theorem rightful_append : Rightful H (t ++ u) ↔ Rightful H t ∧ Rightful (held H t) u := by
  induction t generalizing H with
  | nil => simp [Rightful]
  | cons e t ih => simp [Rightful, ih, and_assoc]

theorem rightful_of_forall (h : ∀ e ∈ t, e.call.isAdvertising = false) : Rightful H t := by
  induction t generalizing H with
  | nil => trivial
  | cons e t ih =>
    have hfirst : e.call.Ends → advertisementPair ∈ H := fun hends => by
      have hadvertising := h e List.mem_cons_self
      rw [hends.isAdvertising] at hadvertising
      cases hadvertising
    exact ⟨hfirst, ih fun f hf => h f (List.mem_cons_of_mem _ hf)⟩

/-- Calls that are not about the advertisement leave it held or not. -/
theorem mem_held_of_bystanders (h : ∀ e ∈ t, e.call.isAdvertising = false) :
    advertisementPair ∈ held H t ↔ advertisementPair ∈ H := by
  refine mem_held_of_unmoved fun e he hmoved => ?_
  have hadvertising := Call.isAdvertising_of_object? (Exchange.object?_of_moved? hmoved)
  rw [h e he] at hadvertising
  cases hadvertising

end Rightful

namespace Application

variable {app app' : Application} {a : Act} {acts : List Act} {t : List (Exchange Application)}
  {r : Answer} {H : Held} {id : AppId} {profile : Profile}

/-- An application advertises what is held, and at the path of advertisements. -/
def Owns (app : Application) (H : Held) : Prop :=
  ∀ active ∈ app.advertisement, active.path = advertisementPath ∧ advertisementPair ∈ H

theorem Owns.of_bystanders (h : app.Owns H) (hsame : app'.advertisement = app.advertisement)
    (hcalls : app.Bystanders t) : Rightful H t ∧ app'.Owns (held H t) := by
  have hquiet : ∀ e ∈ t, e.call.isAdvertising = false := fun e he => (hcalls e he).2
  refine ⟨rightful_of_forall hquiet, ?_⟩
  rwa [Owns, mem_held_of_bystanders hquiet, hsame]

/-- **Every act** ends nothing but what is held, and leaves the application advertising nothing but
what is held. -/
theorem Owns.performs (h : app.Owns H) (performs : app.Performs a.operation t r app') :
    Rightful H t ∧ app'.Owns (held H t) := by
  by_cases hstart : ∃ name, a = .start name
  · obtain ⟨name, rfl⟩ := hstart
    cases performs_startAdvertising performs with
    | active => exact h.of_bystanders rfl .nil
    | malformed => exact h.of_bystanders rfl .nil
    | unexported => exact ⟨⟨False.elim, trivial⟩, h⟩
    | @exported device r inactive hdevice =>
      refine ⟨⟨False.elim, False.elim, trivial⟩, ?_⟩
      rintro active ⟨⟩
      exact ⟨rfl, Finset.mem_insert_self _ _⟩
  by_cases hstop : a = .stop
  · subst hstop
    cases performs_stopAdvertising performs with
    | inactive => exact h.of_bystanders rfl .nil
    | stopped hactive =>
      have hheld : advertisementPair ∈ H := (h _ hactive).2
      exact ⟨⟨fun _ => hheld, fun _ => hheld, trivial⟩, nofun⟩
  · obtain ⟨hsame, hcalls⟩ := performs_bystanders performs (fun name ha => hstart ⟨name, ha⟩) hstop
    exact h.of_bystanders hsame hcalls

/-- **Every history** ends nothing but what its own calls left exported. -/
theorem owns_of_history (past : (fresh id profile).History acts t app) :
    Rightful ∅ t ∧ app.Owns (held ∅ t) := by
  refine past.induct (I := fun t app => Rightful ∅ t ∧ app.Owns (held ∅ t)) (P := fun _ => True)
    ?_ (fun _ _ => trivial) ⟨trivial, nofun⟩
  rintro past app a t r app' - ⟨hrightful, howns⟩ hperforms
  obtain ⟨hrest, howns'⟩ := howns.performs hperforms
  rw [held_append]
  exact ⟨rightful_append.2 ⟨hrightful, hrest⟩, howns'⟩

end Application

/-! ### Several applications -/

/-- The exchanges of several applications on one bus, in order, each with the application. -/
abbrev Weave := List (AppId × Exchange Application)

namespace Weave

/-- The exchanges of one application. -/
def part (i : AppId) (g : Weave) : List (Exchange Application) :=
  (g.filter fun x => x.1 = i).map Prod.snd

/-- The exchanges of all applications. -/
def whole (g : Weave) : List (Exchange Application) := g.map Prod.snd

/-- The application that has its advertisement exported: the last one that exported it, unless it
has been withdrawn since. -/
def exporter? (g : Weave) : Option AppId :=
  g.foldl (fun o x =>
    if x.2.moved? = some advertisementPair then
      match x.2.call with
      | .exportObject _ _ => some x.1
      | _ => none
    else o) none

variable {g before after : Weave} {i j : AppId} {e : Exchange Application}
  {t : List (Exchange Application)} {H : Held}

theorem part_append : part i (before ++ after) = part i before ++ part i after := by
  simp [part]

theorem part_split : part i (before ++ (i, e) :: after) = part i before ++ e :: part i after := by
  simp [part]

theorem part_of_ne (h : i ≠ j) : part i (t.map (Prod.mk j)) = [] := by
  simp [part, List.filter_map, Function.comp_def, h.symm]

/-- What the bus holds of an application after one more exchange. -/
theorem held_part_snoc : held ∅ (part i (g ++ [(j, e)])) =
    if i = j then e.after (held ∅ (part i g)) else held ∅ (part i g) := by
  split_ifs with hij
  · subst hij
    rw [part_split, held_append]
    rfl
  · have hpart : part i (g ++ [(j, e)]) = part i g := by simp [part, Ne.symm hij]
    rw [hpart]

theorem whole_append : whole (before ++ after) = whole before ++ whole after :=
  List.map_append

theorem held_whole_snoc : held H (whole (g ++ [(j, e)])) = e.after (held H (whole g)) := by
  rw [whole_append, held_append]
  rfl

theorem exporter?_snoc_of_unmoved (h : e.moved? ≠ some advertisementPair) :
    exporter? (g ++ [(j, e)]) = exporter? g := by
  simp [exporter?, h]

/-- Who has the advertisement exported, on a bus that may hold other objects besides. -/
structure Custody (H : Held) (g : Weave) : Prop where
  own : ∀ i, advertisementPair ∈ held ∅ (part i g) → exporter? g = some i
  held : ∀ i, exporter? g = some i → advertisementPair ∈ held H (whole g)

theorem Custody.unmoved (h : Custody H g) (hmoved : e.moved? ≠ some advertisementPair) :
    Custody H (g ++ [(j, e)]) where
  own i hi := by
    rw [exporter?_snoc_of_unmoved hmoved]
    rw [held_part_snoc] at hi
    split_ifs at hi
    · exact h.own i ((Exchange.mem_after_of_moved?_ne hmoved).1 hi)
    · exact h.own i hi
  held i hi := by
    rw [exporter?_snoc_of_unmoved hmoved] at hi
    rw [held_whole_snoc, Exchange.mem_after_of_moved?_ne hmoved]
    exact h.held i hi

/-- **An export goes to an advertisement that nobody has exported.** -/
theorem Custody.exported (h : Custody H g) {state : Application} {object : Object}
    (hkind : object.kind = .advertisement)
    (hfree : advertisementPair ∉ GattServer.held H (whole g)) :
    Custody H (g ++ [(j, ⟨state, .exportObject advertisementPath object, .ok ()⟩)]) := by
  have hpair : (advertisementPath, object.kind) = advertisementPair := by rw [hkind]; rfl
  have hexporter :
      exporter? (g ++ [(j, ⟨state, .exportObject advertisementPath object, .ok ()⟩)]) = some j := by
    simp [exporter?, Exchange.moved?, Call.object?, hpair]
  refine ⟨fun i hi => ?_, fun i hi => ?_⟩
  · rw [held_part_snoc] at hi
    split_ifs at hi with hij
    · rw [hexporter, hij]
    · exact absurd (h.held i (h.own i hi)) hfree
  · rw [held_whole_snoc]
    simp [Exchange.after, hpair]

/-- **Whoever has the advertisement exported can withdraw it.** -/
theorem Custody.withdrawn (h : Custody H g) {state : Application}
    (howner : advertisementPair ∈ GattServer.held ∅ (part j g)) :
    Custody H (g ++ [(j, ⟨state, .withdrawObject advertisementPath .advertisement, .ok ()⟩)]) := by
  have hexporter : exporter?
      (g ++ [(j, ⟨state, .withdrawObject advertisementPath .advertisement, .ok ()⟩)]) = none := by
    simp [exporter?, Exchange.moved?, Call.object?, advertisementPair]
  refine ⟨fun i hi => ?_, fun i hi => ?_⟩
  · rw [held_part_snoc] at hi
    split_ifs at hi with hij
    · simp [Exchange.after, advertisementPair] at hi
    · have hsame : some i = some j := (h.own i hi).symm.trans (h.own j howner)
      exact absurd (Option.some.inj hsame) hij
  · rw [hexporter] at hi
    cases hi

/-- **Whose own calls leave the advertisement exported, has it exported.**  This needs that nobody
withdraws what is not its own, and that nothing is exported that is held. -/
theorem custody (rightful : ∀ i, Rightful ∅ (part i g)) (refusing : Refusing H (whole g)) :
    Custody H g := by
  induction g using List.reverseRecOn with
  | nil => exact ⟨fun i h => by simp [part] at h, fun i h => by cases h⟩
  | append_singleton g x ih =>
    obtain ⟨j, state, call, answer⟩ := x
    have hbefore : ∀ i, Rightful ∅ (part i g) := fun i => by
      have hi := rightful i
      rw [part_append] at hi
      exact (rightful_append.1 hi).1
    rw [whole_append] at refusing
    obtain ⟨hrefusing, haccepted, -⟩ := refusing_append.1 refusing
    have hcustody := ih hbefore hrefusing
    by_cases hmoved : (⟨state, call, answer⟩ : Exchange Application).moved? = some advertisementPair
    swap
    · exact hcustody.unmoved hmoved
    cases answer with
    | error e => cases hmoved
    | ok =>
      cases call with
      | exportObject path object =>
        obtain ⟨rfl, hkind⟩ := Prod.mk.inj (Option.some.inj hmoved)
        have hfree : (advertisementPath, object.kind) ∉ GattServer.held H (whole g) := haccepted
        rw [hkind] at hfree
        exact hcustody.exported hkind hfree
      | withdrawObject path kind =>
        obtain ⟨rfl, rfl⟩ := Prod.mk.inj (Option.some.inj hmoved)
        have hj := rightful j
        rw [part_split] at hj
        exact hcustody.withdrawn ((rightful_append.1 hj).2.1 rfl)
      | _ => cases hmoved

/-! ### Operations in any order -/

variable {profiles : AppId → Profile} {app app' : Application}

/-- An application is between operations, in some state. -/
def Between (profiles : AppId → Profile) (g : Weave) (i : AppId) (app : Application) : Prop :=
  ∃ acts, (Application.fresh i (profiles i)).History acts (part i g) app

/-- Every application is between operations or in the midst of one. -/
def Underway (profiles : AppId → Profile) (g : Weave) : Prop :=
  ∀ i, ∃ acts more app, (Application.fresh i (profiles i)).History acts (part i g ++ more) app

theorem Underway.rightful (h : Underway profiles g) (i : AppId) : Rightful ∅ (part i g) := by
  obtain ⟨acts, more, app, past⟩ := h i
  exact (rightful_append.1 (Application.owns_of_history past).1).1

theorem Underway.of_append (h : Underway profiles (before ++ after)) :
    Underway profiles before := by
  intro i
  obtain ⟨acts, more, app, past⟩ := h i
  rw [part_append, List.append_assoc] at past
  exact ⟨acts, _, app, past⟩

theorem Between.mem_held (h : Between profiles g i app) (hactive : app.isAdvertising = true) :
    advertisementPair ∈ held ∅ (part i g) := by
  obtain ⟨acts, past⟩ := h
  obtain ⟨active, hactive⟩ := Option.isSome_iff_exists.1 hactive
  exact ((Application.owns_of_history past).2 active hactive).2

/-- An operation of application `j` comes to nothing: it fails, registers nothing, and everything is
as before, for `j` itself, for application `i` and on the bus. -/
structure Futile (profiles : AppId → Profile) (H : Held) (g : Weave) (i j : AppId)
    (app app' last : Application) (u : List (Exchange Application)) (r : Answer) : Prop where
  failed : ∃ e, r = .error e
  unregistered : ∀ x ∈ u, x.call.kind ≠ .registerAdvertisement
  unchanged : last = app'
  other : Between profiles (g ++ u.map (Prod.mk j)) i app
  held : held (GattServer.held H (whole g)) u = GattServer.held H (whole g)

/-- **Starting to advertise comes to nothing while the advertisement is held.** -/
theorem futile_of_held {u : List (Exchange Application)} {r : Answer} {last : Application}
    {name : String} {device : ObjectPath} (hother : Between profiles g i app) (hij : i ≠ j)
    (hheld : advertisementPair ∈ held H (whole g)) (hinactive : app'.isAdvertising = false)
    (hdevice : ObjectPath.ofText? (deviceStem ++ name) = .ok device)
    (performs : app'.Performs (Application.startAdvertising name) u r last)
    (refusing : Refusing (held H (whole g)) u) : Futile profiles H g i j app app' last u r := by
  have hother : Between profiles (g ++ u.map (Prod.mk j)) i app := by
    rwa [Between, part_append, part_of_ne hij, List.append_nil]
  cases Application.performs_startAdvertising performs with
  | active hactive => simp [hinactive] at hactive
  | malformed _ hfault =>
    rw [hdevice] at hfault
    cases hfault
  | unexported =>
    exact ⟨⟨_, rfl⟩, by simp [Application.exportedAdvertisement, Call.kind], rfl, hother, rfl⟩
  | exported =>
    have hfree : advertisementPair ∉ held H (whole g) := refusing.1
    exact absurd hheld hfree

/-- **At most one application advertises.**  Any number of applications share a bus that refuses to
export what it holds and fails what it likes, and their calls come in any order.

If one of them is between operations and advertising, its advertisement is exported; no other one
that is between operations is advertising; and starting to advertise there comes to nothing, for
whatever device.  Calls that end advertising come from the application that has its advertisement
exported. -/
theorem one_advertiser (underway : Underway profiles g) (refusing : Refusing H (whole g)) :
    (∀ i app, Between profiles g i app → app.isAdvertising = true →
      exporter? g = some i ∧ (advertisementPath, .advertisement) ∈ held H (whole g) ∧
        ∀ j app', Between profiles g j app' → j ≠ i → app'.isAdvertising = false ∧
          ∀ name device u r last, ObjectPath.ofText? (deviceStem ++ name) = .ok device →
            app'.Performs (Application.startAdvertising name) u r last →
            Refusing (held H (whole g)) u → Futile profiles H g i j app app' last u r) ∧
      ∀ before i e after, g = before ++ (i, e) :: after → e.call.Ends →
        exporter? before = some i := by
  have hcustody := custody underway.rightful refusing
  constructor
  · intro i app hbetween hactive
    have hexporter := hcustody.own i (hbetween.mem_held hactive)
    have hheld := hcustody.held i hexporter
    refine ⟨hexporter, hheld, fun j app' hbetween' hji => ?_⟩
    have hinactive : app'.isAdvertising = false := by
      by_contra hadvertising
      rw [Bool.not_eq_false] at hadvertising
      have hsame := hexporter.symm.trans (hcustody.own j (hbetween'.mem_held hadvertising))
      exact hji (Option.some.inj hsame).symm
    exact ⟨hinactive, fun name device u r last hdevice performs hrefusing =>
      futile_of_held hbetween hji.symm hheld hinactive hdevice performs hrefusing⟩
  · rintro before i e after rfl hends
    rw [whole_append] at refusing
    have hbefore := custody underway.of_append.rightful (refusing_append.1 refusing).1
    have hrightful := underway.rightful i
    rw [part_split] at hrightful
    exact hbefore.own i ((rightful_append.1 hrightful).2.1 hends)

/-! ### Weaving -/

/-- Takes the next exchange of one application after the other, as a schedule says. -/
def weave : List AppId → (AppId → List (Exchange Application)) → Weave
  | [], _ => []
  | i :: schedule, parts =>
    match parts i with
    | [] => weave schedule parts
    | e :: rest => (i, e) :: weave schedule (Function.update parts i rest)

/-- A schedule takes exchanges from the front. -/
theorem exists_part_weave (schedule : List AppId) (parts : AppId → List (Exchange Application))
    (i : AppId) : ∃ more, parts i = part i (weave schedule parts) ++ more := by
  induction schedule generalizing parts with
  | nil => exact ⟨parts i, rfl⟩
  | cons j schedule ih =>
    rw [weave]
    cases hnext : parts j with
    | nil => exact ih parts
    | cons e rest =>
      obtain ⟨more, hmore⟩ := ih (Function.update parts j rest)
      by_cases hij : i = j
      · subst hij
        rw [Function.update_self] at hmore
        refine ⟨more, ?_⟩
        calc parts i = e :: rest := hnext
          _ = e :: (part i (weave schedule (Function.update parts i rest)) ++ more) :=
            congrArg (e :: ·) hmore
          _ = _ := by simp [part]
      · rw [Function.update_of_ne hij] at hmore
        refine ⟨more, ?_⟩
        rw [hmore]
        simp [part, Ne.symm hij]

/-- **Histories can be woven by any schedule.** -/
theorem underway_weave {parts : AppId → List (Exchange Application)} (schedule : List AppId)
    (h : ∀ i, ∃ acts app, (Application.fresh i (profiles i)).History acts (parts i) app) :
    Underway profiles (weave schedule parts) := by
  intro i
  obtain ⟨acts, app, past⟩ := h i
  obtain ⟨more, hmore⟩ := exists_part_weave schedule parts i
  rw [hmore] at past
  exact ⟨acts, more, app, past⟩

/-- What two applications do, the first two of many. -/
def contestedActs : AppId → List Act
  | 0 => [.start "hci0", .stop, .start "hci0"]
  | 1 => [.run]
  | _ => []

/-- Each application taken alone, on a bus that fails to register the first advertisement. -/
def contested (i : AppId) : List (Exchange Application) × Application × List Answer :=
  Application.play Sample.answering (.fresh i Sample.profile) (contestedActs i)
    [.ok (), if i = 0 then Sample.failure else .ok ()]

/-- They take turns, the second one being launched while the first one stops. -/
def contestedWeave : Weave := weave [0, 0, 1, 0, 1, 0, 1, 0, 0] fun i => (contested i).1

/-- The second application starts to advertise, and is refused. -/
def contestedStart : List (Exchange Application) × (Answer × Application) × List Answer :=
  ((contested 1).2.1.script (Application.startAdvertising "hci1")).record Sample.answering
    [Sample.failure]

/-- The hypotheses are satisfiable: the first application advertises again after a stop, the second
one is launched meanwhile and cannot advertise, and what was stopped had been exported by the first
one. -/
theorem one_advertiser_contested :
    exporter? contestedWeave = some 0 ∧
      Futile (fun _ => Sample.profile) ∅ contestedWeave 0 1 (contested 0).2.1 (contested 1).2.1
        contestedStart.2.1.2 contestedStart.1 contestedStart.2.1.1 ∧
      exporter? (contestedWeave.take 3) = some 0 := by
  have underway : Underway (fun _ => Sample.profile) contestedWeave :=
    underway_weave _ fun i =>
      ⟨_, _, Application.history_play Sample.answering _ (contestedActs i) _⟩
  have hfirst : Between (fun _ => Sample.profile) contestedWeave 0 (contested 0).2.1 :=
    ⟨_, Application.history_play Sample.answering _ (contestedActs 0) _⟩
  have hsecond : Between (fun _ => Sample.profile) contestedWeave 1 (contested 1).2.1 :=
    ⟨_, Application.history_play Sample.answering _ (contestedActs 1) _⟩
  obtain ⟨hadvertising, hending⟩ := one_advertiser (H := ∅) underway (by decide)
  obtain ⟨hexporter, -, hother⟩ := hadvertising 0 _ hfirst (by decide)
  obtain ⟨-, hstart⟩ := hother 1 _ hsecond (by decide)
  have hdevice : ∃ device, ObjectPath.ofText? (deviceStem ++ "hci1") = .ok device := ⟨_, rfl⟩
  obtain ⟨device, hdevice⟩ := hdevice
  refine ⟨hexporter, ?_, ?_⟩
  · exact hstart "hci1" device _ _ _ hdevice (Application.performs_record ..) (by decide)
  · exact hending (contestedWeave.take 3) 0 _ (contestedWeave.drop 4) rfl trivial

end Weave
end GattServer
