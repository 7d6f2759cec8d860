/-
# Signals about objects

Whoever follows the signals of an application can tell what it lists.  For every path
announcements and retractions alternate, beginning with an announcement, and a retraction names
the interfaces that were announced before it.  Within a service a parent is announced before its
children, and retracted after them (`Application.signals_alternate`).  This counts every call that
is made, also one that fails: the application goes on as if it had been heard, and does not repeat
it.

It is the directory that remembers what was announced: at each call, and after it, a path is listed
exactly if interfaces stand announced for it, and with the same interfaces (`Application.Tells`).
A node is retracted as it is taken out.  And a node that is announced was not listed before, since
a bus that lets a service be exported anew holds nothing of it, and what is not held is not
listed (`Application.Sound.not_shows`).
-/

import GattServer.Proofs.Dangling

namespace GattServer

/-! ### Signals -/

/-- A signal about an object. -/
inductive Signal where
  /-- The object has interfaces. -/
  | added (interfaces : InterfaceMap)
  /-- The object has lost interfaces. -/
  | removed (names : List String)

namespace Signal

/-- The interfaces that stand announced after a signal. -/
def standing : Signal → Option InterfaceMap
  | .added interfaces => some interfaces
  | .removed _ => none

/-- A signal is in turn: an announcement where nothing stands announced, and a retraction where
interfaces do, which it names. -/
def InTurn (standing : Option InterfaceMap) : Signal → Prop
  | .added _ => standing = none
  | .removed names => ∃ interfaces, standing = some interfaces ∧ names = interfaces.keys

/-- **Signals alternate**, and what is removed is what was added, from a moment on at which some
interfaces stand announced or none. -/
def Alternate : Option InterfaceMap → List Signal → Prop
  | _, [] => True
  | m, s :: rest => s.InTurn m ∧ Alternate s.standing rest

end Signal

/-- The signal about a path that a call is meant to send. -/
def Call.signal? (q : ObjectPath) : Call → Option Signal
  | .announce _ p interfaces => if p = q then some (.added interfaces) else none
  | .retract _ p names => if p = q then some (.removed names) else none
  | _ => none

theorem Call.Aside.signal?_eq_none {c : Call} (h : c.Aside) (q : ObjectPath) :
    c.signal? q = none := by
  cases c <;> first | rfl | exact h.elim

section Standing

variable {σ : Type} {q : ObjectPath} {m : Option InterfaceMap} {e : Exchange σ}
  {t u : List (Exchange σ)}

/-- The signals about a path, in order, whether they could be sent or not. -/
def signals (q : ObjectPath) (t : List (Exchange σ)) : List Signal :=
  t.filterMap fun e => e.call.signal? q

/-- The interfaces that stand announced for a path after some exchanges. -/
def standing (q : ObjectPath) (m : Option InterfaceMap) (t : List (Exchange σ)) :
    Option InterfaceMap :=
  (signals q t).foldl (fun _ s => s.standing) m

/-- Interfaces stand announced for a path: its last signal is an announcement. -/
def Announced (t : List (Exchange σ)) (q : ObjectPath) : Prop := (standing q none t).isSome

theorem signals_cons : signals q (e :: t) = (e.call.signal? q).toList ++ signals q t := by
  rw [signals, List.filterMap_cons]
  cases e.call.signal? q <;> rfl

theorem standing_append : standing q m (t ++ u) = standing q (standing q m t) u := by
  simp [standing, signals]

theorem standing_of_signal {s : Signal} (h : e.call.signal? q = some s) :
    standing q m [e] = s.standing := by
  rw [standing, signals_cons, h]
  rfl

theorem standing_of_silent (h : e.call.signal? q = none) : standing q m [e] = m := by
  rw [standing, signals_cons, h]
  rfl

/-- Of two nodes, the parent is announced when the child is, and the child is not when the parent
is retracted. -/
structure InOrder (t : List (Exchange σ)) (parent child : ObjectPath) : Prop where
  announced : ∀ before e after interfaces, t = before ++ e :: after →
    e.call.signal? child = some (.added interfaces) → Announced before parent
  retracted : ∀ before e after names, t = before ++ e :: after →
    e.call.signal? parent = some (.removed names) → ¬ Announced before child

end Standing

/-- A path that belongs to a node is not its own parent. -/
theorem ObjectPath.parent_ne {q : ObjectPath} {k : ObjectKind} (h : q.kind? = some k) :
    q.parent ≠ q := by
  rcases q.exists_push with rfl | ⟨p, s, rfl⟩
  · cases h
  · rw [parent_push]
    intro hsame
    have hlength := congrArg (fun p => p.segments.length) hsame
    simp [push] at hlength

namespace Application

variable {root q : ObjectPath} {m : Option InterfaceMap} {app mid app' : Application}
  {s : Service} {n : Node} {a : Act} {acts : List Act} {nodes : List Node}
  {t u : List (Exchange Application)} {r : Answer} {H : Held}

/-! ### The directory remembers -/

/-- A path is listed exactly if interfaces stand announced for it, and with the same ones. -/
def Lists (app : Application) (q : ObjectPath) (m : Option InterfaceMap) : Prop :=
  m.map FinMap.keys = (app.directory.find? q).map FinMap.keys

theorem Lists.of_directory (h : app.Lists q m) (hdirectory : app'.directory = app.directory) :
    app'.Lists q m := by
  rwa [Lists, hdirectory]

theorem Lists.isSome_iff (h : app.Lists q m) : m.isSome ↔ q ∈ app.directory.keys := by
  have hsome := congrArg Option.isSome h
  rw [Option.isSome_map, Option.isSome_map] at hsome
  rw [FinMap.mem_keys_iff, hsome]

theorem Lists.eq_none (h : app.Lists q m) (hq : q ∉ app.directory.keys) : m = none := by
  rwa [← h.isSome_iff, Option.not_isSome_iff_eq_none] at hq

/-- In the course of some exchanges all signals about a path are in turn, and at each of them, as
in the end, the path is listed as it stands announced. -/
def Tells (q : ObjectPath) :
    Option InterfaceMap → List (Exchange Application) → Application → Prop
  | m, [], app' => app'.Lists q m
  | m, e :: t, app' =>
    (∀ s ∈ e.call.signal? q, s.InTurn m) ∧ e.state.Lists q (standing q m [e]) ∧
      Tells q (standing q m [e]) t app'

theorem Tells.append (h : Tells q m t mid) (h' : ∀ m, mid.Lists q m → Tells q m u app') :
    Tells q m (t ++ u) app' := by
  induction t generalizing m with
  | nil => exact h' m h
  | cons e t ih =>
    obtain ⟨hturn, hstate, hrest⟩ := h
    exact ⟨hturn, hstate, ih hrest⟩

theorem Tells.alternate (h : Tells q m t app') : Signal.Alternate m (signals q t) := by
  induction t generalizing m with
  | nil => trivial
  | cons e t ih =>
    obtain ⟨hturn, -, hrest⟩ := h
    have htail := ih hrest
    rw [signals_cons]
    cases hsignal : e.call.signal? q with
    | none => rwa [standing_of_silent hsignal] at htail
    | some s =>
      rw [standing_of_signal hsignal] at htail
      exact ⟨hturn s hsignal, htail⟩

/-- What is true at one of the exchanges. -/
theorem Tells.of_split {before after : List (Exchange Application)} {e : Exchange Application}
    (h : Tells q m (before ++ e :: after) app') :
    e.state.Lists q (standing q m (before ++ [e])) := by
  induction before generalizing m with
  | nil =>
    obtain ⟨-, hstate, -⟩ := h
    exact hstate
  | cons f before ih =>
    obtain ⟨-, -, hrest⟩ := h
    have hstate := ih hrest
    rwa [← standing_append, List.singleton_append] at hstate

/-! ### Stretches of an operation -/

/-- A stretch without signals about the path. -/
theorem tells_of_silent (silent : ∀ e ∈ t, e.call.signal? q = none)
    (states : ∀ e ∈ t, e.state.Lists q m) (last : app'.Lists q m) : Tells q m t app' := by
  induction t with
  | nil => exact last
  | cons e t ih =>
    have hsilent := silent e List.mem_cons_self
    have hrest := ih (fun f hf => silent f (List.mem_cons_of_mem _ hf))
      fun f hf => states f (List.mem_cons_of_mem _ hf)
    rw [Tells, standing_of_silent hsilent, hsilent]
    exact ⟨nofun, states e List.mem_cons_self, hrest⟩

theorem Lists.announce (h : app.Lists q m) (hnew : n.path ∉ app.directory.keys) :
    Tells q m [⟨app.enter [n], n.announced app.path, r⟩] (app.enter [n]) := by
  by_cases hq : n.path = q
  · subst hq
    have hsignal : (n.announced app.path).signal? n.path = some (.added n.interfaces) := if_pos rfl
    have hlists : (app.enter [n]).Lists n.path (some n.interfaces) := by
      rw [Lists, find?_enter_of_mem (by simp) List.mem_cons_self]
    rw [Tells, Tells, standing_of_signal hsignal, hsignal]
    refine ⟨fun s hs => ?_, hlists, hlists⟩
    cases hs
    exact h.eq_none hnew
  · have hsignal : (n.announced app.path).signal? q = none := if_neg hq
    have hlists : (app.enter [n]).Lists q m := by
      rw [Lists, find?_enter_of_notMem (by simpa using Ne.symm hq)]
      exact h
    exact tells_of_silent (by simpa using hsignal) (by simpa using hlists) hlists

theorem Lists.retract (h : app.Lists q m) {interfaces : InterfaceMap}
    (listed : app.directory.find? n.path = some interfaces) :
    Tells q m [⟨app.leave [n], n.retracted app.path interfaces, r⟩] (app.leave [n]) := by
  by_cases hq : n.path = q
  · subst hq
    have hsignal : (n.retracted app.path interfaces).signal? n.path =
        some (.removed interfaces.keys) := if_pos rfl
    have hlists : (app.leave [n]).Lists n.path none := by
      rw [Lists, find?_leave, if_pos (List.mem_map_of_mem List.mem_cons_self)]
    rw [Tells, Tells, standing_of_signal hsignal, hsignal]
    refine ⟨fun s hs => ?_, hlists, hlists⟩
    cases hs
    rw [Lists, listed] at h
    obtain ⟨announced, rfl, hkeys⟩ := Option.map_eq_some_iff.1 h
    exact ⟨announced, rfl, hkeys.symm⟩
  · have hsignal : (n.retracted app.path interfaces).signal? q = none := if_neg hq
    have hlists : (app.leave [n]).Lists q m := by
      rw [Lists, find?_leave, if_neg (by simpa using Ne.symm hq)]
      exact h
    exact tells_of_silent (by simpa using hsignal) (by simpa using hlists) hlists

/-- **Nodes that were not listed are announced.** -/
theorem Lists.announcing (h : app.Lists q m) (hnodup : (nodes.map Node.path).Nodup)
    (hnew : ∀ n ∈ nodes, n.path ∉ app.directory.keys) :
    Tells q m (app.announcing nodes) (app.enter nodes) := by
  induction nodes generalizing app m with
  | nil => exact h
  | cons n ns ih =>
    obtain ⟨hn, hns⟩ := List.nodup_cons.1 hnodup
    have hfirst := h.announce (r := .ok ()) (hnew n List.mem_cons_self)
    refine hfirst.append (u := (app.enter [n]).announcing ns) fun m' hm' => ih hm' hns ?_
    intro k hk hlisted
    rcases (mem_keys_enter (by simp)).1 hlisted with hold | hsame
    · exact hnew k (List.mem_cons_of_mem _ hk) hold
    · have hpath : k.path = n.path := by simpa using hsame
      exact hn (hpath ▸ List.mem_map_of_mem hk)

/-- **Nodes are retracted as far as they are listed.** -/
theorem Lists.retracting (h : app.Lists q m) :
    Tells q m (app.retracting nodes) (app.leave nodes) := by
  induction nodes generalizing app m with
  | nil => exact h
  | cons n ns ih =>
    rw [Application.retracting, leave_cons app n ns]
    cases listed : app.directory.find? n.path with
    | none =>
      rw [leave_of_find?_eq_none listed]
      exact ih h
    | some interfaces =>
      have hfirst := h.retract (r := .ok ()) listed
      exact hfirst.append (u := (app.leave [n]).retracting ns) fun m' hm' => ih hm'

theorem Lists.exporting (h : app.Lists q m) (hdirectory : app'.directory = app.directory) :
    Tells q m (app.exporting nodes) app' := by
  refine tells_of_silent (fun e he => ?_) (fun e he => ?_) (h.of_directory hdirectory)
  · obtain ⟨n, -, rfl⟩ := mem_exporting he
    rfl
  · obtain ⟨n, -, rfl⟩ := mem_exporting he
    exact h

theorem Lists.withdrawing (h : app.Lists q m) : Tells q m (app.withdrawing nodes) app := by
  refine tells_of_silent (fun e he => ?_) (fun e he => ?_) h
  · obtain ⟨n, -, rfl⟩ := mem_withdrawing he
    rfl
  · obtain ⟨n, -, rfl⟩ := mem_withdrawing he
    exact h

/-! ### Whole operations -/

/-- **An addition announces what was not listed.** -/
theorem Lists.addition (h : app.Lists q m) (sound : app.Sound H) (hs : s.Rooted root)
    (refusing : Refusing H t) (course : Addition app s t r app') : Tells q m t app' := by
  -- what lets the service be exported has nothing of it, so nothing of it is listed
  have hnew : app.Welcomes s → Refusing H (app.exporting s.nodes) →
      ∀ n ∈ s.nodes, n.path ∉ (app.adopt s).directory.keys := by
    intro welcome hexports n hn hlisted
    have hfree := notMem_of_refusing_exporting hexports (n := .service s) List.mem_cons_self
    exact sound.not_shows hs welcome.2 hfree hn (Or.inl hlisted)
  have hadopted : Tells q m (app.exporting s.nodes) (app.adopt s) := h.exporting rfl
  have hpublished : ∀ {m' : Option InterfaceMap} {r' : Answer}, (app.adopt s).Lists q m' →
      Tells q m' [⟨app.adopt s, .publishTree app.path (app.adopt s).tree, r'⟩] (app.adopt s) :=
    fun hm => tells_of_silent (by simp [Call.signal?]) (by simpa using hm) hm
  cases course with
  | refused => exact h
  | @rolledBack done rest n e back welcome nodes withdrawals =>
    refine (h.exporting rfl).append fun m' hm' => tells_of_silent (fun f hf => ?_)
      (fun f hf => ?_) hm'
    · rcases List.mem_cons.1 hf with rfl | hf
      · rfl
      · obtain ⟨-, k, -, hcall⟩ := mem_of_question withdrawals hf
        rw [hcall]
        rfl
    · rcases List.mem_cons.1 hf with rfl | hf
      · exact hm'
      · rw [(mem_of_question withdrawals hf).1]
        exact hm'
  | unpublished welcome => exact hadopted.append fun m' hm' => hpublished hm'
  | @unannounced done rest n e welcome nodes =>
    have hunlisted := hnew welcome (refusing_append.1 refusing).1
    have hsplit : s.nodes = (done ++ [n]) ++ rest := by simpa using nodes
    have hnodup := hs.nodup_paths_of_append hsplit
    rw [List.map_append, List.map_singleton, ← List.concat_eq_append, List.nodup_concat] at hnodup
    obtain ⟨hn, hdone⟩ := hnodup
    refine hadopted.append fun m₁ h₁ => (hpublished h₁).append (u := _) fun m₂ h₂ => ?_
    have hfirst : ∀ k ∈ done, k.path ∉ (app.adopt s).directory.keys := fun k hk =>
      hunlisted k (nodes ▸ List.mem_append_left _ hk)
    refine (h₂.announcing hdone hfirst).append fun m₃ h₃ => ?_
    rw [enter_append]
    refine h₃.announce fun hlisted => ?_
    rcases (mem_keys_enter hdone).1 hlisted with hold | hsame
    · exact hunlisted n (by simp [nodes]) hold
    · exact hn hsame
  | completed welcome =>
    have hunlisted := hnew welcome (refusing_append.1 refusing).1
    refine hadopted.append fun m₁ h₁ => (hpublished h₁).append (u := _) fun m₂ h₂ => ?_
    exact h₂.announcing hs.nodup_paths hunlisted

/-- **A removal retracts what is listed.** -/
theorem Lists.removal (h : app.Lists q m) (course : Removal app s t r app') : Tells q m t app' := by
  have hgone : (app.disown s.path).Lists q m := h
  cases course with
  | absent => exact h
  | @interrupted live done rest n interfaces e found nodes listed =>
    refine hgone.retracting.append fun m' hm' => ?_
    rw [leave_append]
    exact hm'.retract listed
  | stuck =>
    refine hgone.retracting.append fun m₁ h₁ => h₁.withdrawing.append fun m₂ h₂ => ?_
    exact tells_of_silent (by simp [Node.withdrawn, Call.signal?]) (by simpa using h₂) h₂
  | withdrawn =>
    refine hgone.retracting.append fun m₁ h₁ => h₁.withdrawing.append fun m₂ h₂ => ?_
    exact tells_of_silent (by simp [Call.signal?]) (by simpa using h₂) h₂

/-- Another value leaves every entry its interfaces. -/
theorem Lists.showing (h : app.Lists q m) {path : ObjectPath} {value : List UInt8}
    {services : List Service} : (app.showing path value services).Lists q m := by
  rw [Lists, find?_showing, h]
  split_ifs
  · cases app.directory.find? q with
    | none => rfl
    | some interfaces => exact congrArg some (FinMap.keys_modify _ _ _).symm
  · rfl

/-- **Every act keeps the signals in turn.** -/
theorem Lists.performs (h : app.Lists q m) (sound : app.Sound H)
    (made : a.Uses fun s => ∃ root, s.Made root) (refusing : Refusing H t)
    (performs : app.Performs a.operation t r app') : Tells q m t app' := by
  cases performs_course performs with
  | quiet same calls =>
    exact tells_of_silent (fun e he => (calls e he).2.signal?_eq_none q)
      (fun e he => h.of_directory (calls e he).1.directory) (h.of_directory same.directory)
  | add course =>
    obtain ⟨root, hmade⟩ := made
    exact h.addition sound hmade.rooted refusing course
  | remove course => exact h.removal course
  | update => exact tells_of_silent (by simp [Call.signal?]) (by simpa using h.showing) h.showing

/-- **Every history keeps the signals in turn.** -/
theorem tells_of_history {id : AppId} {profile : Profile}
    (past : (fresh id profile).History acts t app)
    (made : ∀ a ∈ acts, a.Uses fun s => ∃ root, s.Made root) (refusing : Refusing H t) :
    Tells q none t app := by
  have htells : Refusing H t → app.Sound (held H t) ∧ Tells q none t app := by
    refine past.induct (I := fun t app => Refusing H t → app.Sound (held H t) ∧
      Tells q none t app) ?_ made fun _ => ⟨.fresh id profile H, rfl⟩
    intro past app a t r app' made hpast hperforms refusing
    obtain ⟨hrefusing, hrest⟩ := refusing_append.1 refusing
    obtain ⟨hsound, htells⟩ := hpast hrefusing
    rw [held_append]
    exact ⟨(hsound.performs made hrest hperforms).2,
      htells.append fun m hm => hm.performs hsound made hrest hperforms⟩
  exact (htells refusing).2

/-- What is listed at an exchange stands announced by then. -/
theorem announced_iff_mem_keys {before after : List (Exchange Application)}
    {e : Exchange Application} (h : Tells q none (before ++ e :: after) app) :
    Announced (before ++ [e]) q ↔ q ∈ e.state.directory.keys :=
  h.of_split.isSome_iff

/-- An exchange that signals nothing about a path leaves it as it stands. -/
theorem announced_append_of_silent {before : List (Exchange Application)}
    {e : Exchange Application} (h : e.call.signal? q = none) :
    Announced (before ++ [e]) q ↔ Announced before q := by
  rw [Announced, standing_append, standing_of_silent h, Announced]

theorem signal?_of_ne {c : Call} {p : ObjectPath} {s : Signal} (h : c.signal? q = some s)
    (hne : p ≠ q) : c.signal? p = none := by
  cases c with
  | announce manager path interfaces =>
    rw [Call.signal?] at h
    split_ifs at h with hpath
    exact if_neg fun hp => hne (hp.symm.trans hpath)
  | retract manager path names =>
    rw [Call.signal?] at h
    split_ifs at h with hpath
    exact if_neg fun hp => hne (hp.symm.trans hpath)
  | _ => cases h

/-- **Signals are in order where the directory is closed under parents** at every exchange. -/
theorem inOrder_of_throughout {parent child : ObjectPath} (hne : child ≠ parent)
    (htells : ∀ q, Tells q none t app)
    (hclosed : ∀ e ∈ t, child ∈ e.state.directory.keys → parent ∈ e.state.directory.keys) :
    InOrder t parent child where
  announced before e after interfaces hsplit hsignal := by
    subst hsplit
    have hchild : Announced (before ++ [e]) child := by
      rw [Announced, standing_append, standing_of_signal hsignal]
      rfl
    have hlisted := (announced_iff_mem_keys (htells child)).1 hchild
    have hparent := hclosed e (by simp) hlisted
    have hannounced := (announced_iff_mem_keys (htells parent)).2 hparent
    rwa [announced_append_of_silent (signal?_of_ne hsignal hne.symm)] at hannounced
  retracted before e after names hsplit hsignal hchild := by
    subst hsplit
    rw [← announced_append_of_silent (signal?_of_ne hsignal hne)] at hchild
    have hlisted := (announced_iff_mem_keys (htells child)).1 hchild
    have hparent := hclosed e (by simp) hlisted
    have hannounced := (announced_iff_mem_keys (htells parent)).2 hparent
    rw [Announced, standing_append, standing_of_signal hsignal] at hannounced
    cases hannounced

/-- **The signals of an application.**  After any history on a bus that refuses to export what it
holds, and fails what it likes, announcements and retractions alternate for every path; what is
retracted are the interfaces that were announced; and in every service that can come about, parents
are announced before their children and retracted after them. -/
theorem signals_alternate {id : AppId} {profile : Profile}
    (past : (fresh id profile).History acts t app)
    (made : ∀ a ∈ acts, a.Uses fun s => ∃ root, s.Made root) (refusing : Refusing H t) :
    (∀ q, Signal.Alternate none (signals q t)) ∧
      ∀ root s, Service.Made root s → ∀ parent ∈ s.nodes, ∀ child ∈ s.nodes,
        child.parent? = some parent.path → InOrder t parent.path child.path := by
  have htells : ∀ q, Tells q none t app := fun q => tells_of_history past made refusing
  refine ⟨fun q => (htells q).alternate, ?_⟩
  intro root s hs parent hparent child hchild hnamed
  have hkind : child.path.kind? ≠ some .service := by
    rw [hs.rooted.kind?_eq hchild]
    cases child with
    | service => cases hnamed
    | characteristic => exact nofun
    | descriptor => exact nofun
  have habove : child.path.parent = parent.path := by
    have hmem := hs.rooted.mem_parent? hchild hkind
    rw [hnamed] at hmem
    exact (Option.some.inj hmem).symm
  have hsound := ((Sound.fresh id profile H).history past made refusing).1
  have hne : child.path ≠ parent.path := by
    rw [← habove]
    exact (ObjectPath.parent_ne (hs.rooted.kind?_eq hchild)).symm
  refine inOrder_of_throughout hne htells fun e he hlisted => ?_
  obtain ⟨before, after, rfl⟩ := List.append_of_mem he
  have hstate := (hsound before e after rfl).1
  rw [← habove]
  exact hstate.parent _ hlisted hkind

/-- A service is added, not all of it being announced, removed, and added again. -/
def repeatedAddition : List Act :=
  [.run, .add Sample.battery, .remove Sample.battery, .add Sample.battery]

def repeatedAdditionAnswers : List Answer := List.replicate 8 (.ok ()) ++ [Sample.failure]

/-- The hypotheses are satisfiable: the characteristic is announced in vain, retracted, and
announced again, in order with its service. -/
theorem signals_alternate_repeated :
    let played := play Sample.answering (fresh 0 Sample.profile) repeatedAddition
      repeatedAdditionAnswers
    (signals Sample.levelPath played.1).length = 3 ∧
      (∀ q, Signal.Alternate none (signals q played.1)) ∧
      InOrder played.1 Sample.batteryPath Sample.levelPath := by
  have hbattery : ∃ root, Sample.battery.Made root := ⟨_, Sample.made_battery⟩
  have huses : ∀ a ∈ repeatedAddition, a.Uses fun s => ∃ root, s.Made root := by
    intro a ha
    simp only [repeatedAddition, List.mem_cons, List.not_mem_nil, or_false] at ha
    rcases ha with rfl | rfl | rfl | rfl
    · trivial
    all_goals exact hbattery
  obtain ⟨halternate, horder⟩ := signals_alternate (H := ∅)
    (history_play Sample.answering (fresh 0 Sample.profile) repeatedAddition
      repeatedAdditionAnswers) huses (by decide)
  refine ⟨by decide, halternate, ?_⟩
  exact horder _ _ Sample.made_battery (.service Sample.battery) (by decide)
    (.characteristic Sample.battery Sample.level) (by decide) rfl

end Application
end GattServer
