/-
# What a removal can leave behind

A removed service should be gone from the directory.  But a removal gives the service up first and
takes its nodes out of the directory one by one, and it stops at the first retraction that fails.
What is listed at that moment has been stranded: no live service owns it, and another removal of the
service finds nothing to do.

`Application.Stranded` says so of a path, in terms of the exchanges alone.  After a removal that
reports success, an entry at the path of the service or below it is either stranded, or that of
another live service with a path below (`Application.removed_is_gone_iff`).  That holds on every bus
and whatever it fails; so a removed service is gone exactly if no earlier removal was interrupted in
that way.

The proof follows a key through the exchanges.  A key stays from one state to the next unless the
exchange in between retracts it (`Application.Persists`).
-/

import GattServer.Proofs.History
import GattServer.Proofs.Steps

namespace GattServer

namespace Exchange

/-- The call of an exchange retracts a path. -/
def Retracts {σ : Type} (e : Exchange σ) (q : ObjectPath) : Prop :=
  match e.call with
  | .retract _ p _ => p = q
  | _ => False

/-- The retraction of a node below a path fails. -/
def FailsBelow {σ : Type} (e : Exchange σ) (q : ObjectPath) : Prop :=
  match e.call with
  | .retract _ p _ => p.IsBelow q ∧ ¬ e.Succeeded
  | _ => False

end Exchange

namespace Application

variable {root : ObjectPath} {roots : ObjectPath → Prop} {app mid app' : Application} {s : Service}
  {n : Node} {a : Act} {acts : List Act} {nodes : List Node} {t u : List (Exchange Application)}
  {r : Answer} {p q : ObjectPath}

/-! ### Keys that persist -/

/-- A key of the first state is one of every later state, until it is retracted. -/
def Persists (q : ObjectPath) (app : Application) :
    List (Exchange Application) → Application → Prop
  | [], app' => q ∈ app.directory.keys → q ∈ app'.directory.keys
  | e :: t, app' =>
    (q ∈ app.directory.keys → q ∈ e.state.directory.keys ∨ e.Retracts q) ∧ Persists q e.state t app'

theorem Persists.append (h : app.Persists q t mid) (h' : mid.Persists q u app') :
    app.Persists q (t ++ u) app' := by
  induction t generalizing app with
  | nil =>
    cases u with
    | nil => exact fun hq => h' (h hq)
    | cons e u => exact ⟨fun hq => h'.1 (h hq), h'.2⟩
  | cons e t ih => exact ⟨h.1, ih h.2⟩

theorem Persists.mem_keys (h : app.Persists q t app') (hq : q ∈ app.directory.keys)
    (hretracts : ∀ e ∈ t, ¬ e.Retracts q) : q ∈ app'.directory.keys := by
  induction t generalizing app with
  | nil => exact h hq
  | cons e t ih =>
    have hstate := (h.1 hq).resolve_right (hretracts e List.mem_cons_self)
    exact ih h.2 hstate fun f hf => hretracts f (List.mem_cons_of_mem _ hf)

/-- A key of any state on the way persists as well. -/
theorem Persists.of_split {before after : List (Exchange Application)} {e : Exchange Application}
    (h : app.Persists q (before ++ e :: after) app') : e.state.Persists q after app' := by
  induction before generalizing app with
  | nil => exact h.2
  | cons f before ih => exact ih h.2

/-- A stretch in which the directory stays as it is. -/
theorem persists_of_directory (states : ∀ e ∈ t, e.state.directory = app.directory)
    (hend : app'.directory = app.directory) : app.Persists q t app' := by
  induction t generalizing app with
  | nil => exact fun hq => by rwa [hend]
  | cons e t ih =>
    have hstate := states e List.mem_cons_self
    refine ⟨fun hq => Or.inl (by rwa [hstate]), ih (fun f hf => ?_) (by rw [hend, hstate])⟩
    rw [hstate]
    exact states f (List.mem_cons_of_mem _ hf)

theorem mem_keys_enter_of_mem (h : q ∈ app.directory.keys) : q ∈ (app.enter [n]).directory.keys :=
  (mem_keys_enter (by simp)).2 (Or.inl h)

theorem persists_announcing : app.Persists q (app.announcing nodes) (app.enter nodes) := by
  induction nodes generalizing app with
  | nil => exact fun hq => hq
  | cons n ns ih => exact ⟨fun hq => Or.inl (mem_keys_enter_of_mem hq), ih⟩

theorem persists_retracting : app.Persists q (app.retracting nodes) (app.leave nodes) := by
  induction nodes generalizing app with
  | nil => exact fun hq => hq
  | cons n ns ih =>
    rw [retracting, leave_cons app n ns]
    cases hd : app.directory.find? n.path with
    | none =>
      rw [leave_of_find?_eq_none hd]
      exact ih
    | some interfaces =>
      refine ⟨fun hq => ?_, ih⟩
      by_cases hn : n.path = q
      · exact Or.inr hn
      · exact Or.inl (mem_keys_leave.2 ⟨hq, by simpa using Ne.symm hn⟩)

theorem persists_addition (course : Addition app s t r app') : app.Persists q t app' := by
  have hexporting : ∀ nodes, ∀ e ∈ app.exporting nodes, e.state.directory = app.directory := by
    intro nodes e he
    obtain ⟨n, -, rfl⟩ := mem_exporting he
    rfl
  have hadopted : app.Persists q (app.exporting s.nodes) (app.adopt s) :=
    persists_of_directory (hexporting s.nodes) rfl
  cases course with
  | refused => exact fun hq => hq
  | @rolledBack done rest n e back welcome nodes withdrawals =>
    refine persists_of_directory (fun f hf => ?_) rfl
    rcases List.mem_append.1 hf with hf | hf
    · exact hexporting done f hf
    · rcases List.mem_cons.1 hf with rfl | hf
      · rfl
      · rw [(mem_of_question withdrawals hf).1]
  | unpublished => exact hadopted.append ⟨Or.inl, fun hq => hq⟩
  | @unannounced done rest n =>
    refine hadopted.append ⟨Or.inl, persists_announcing.append ⟨fun hq => Or.inl ?_, fun hq => hq⟩⟩
    rw [enter_append]
    exact mem_keys_enter_of_mem hq
  | completed => exact hadopted.append ⟨Or.inl, persists_announcing⟩

theorem persists_removal (course : Removal app s t r app') : app.Persists q t app' := by
  have hwithdrawing : ∀ (gone : Application) nodes,
      gone.Persists q (gone.withdrawing nodes) gone := by
    refine fun gone nodes => persists_of_directory (fun e he => ?_) rfl
    obtain ⟨n, -, rfl⟩ := mem_withdrawing he
    rfl
  have hdisown : app.Persists q [] (app.disown s.path) := fun hq => hq
  cases course with
  | absent => exact fun hq => hq
  | @interrupted live done rest n =>
    refine hdisown.append (t := []) (persists_retracting.append ⟨fun hq => ?_, fun hq => hq⟩)
    by_cases hn : n.path = q
    · exact Or.inr hn
    · rw [leave_append]
      exact Or.inl (mem_keys_leave.2 ⟨hq, by simpa using Ne.symm hn⟩)
  | stuck =>
    exact hdisown.append (t := [])
      (persists_retracting.append ((hwithdrawing _ _).append ⟨Or.inl, fun hq => hq⟩))
  | withdrawn =>
    exact hdisown.append (t := [])
      (persists_retracting.append ((hwithdrawing _ _).append ⟨Or.inl, fun hq => hq⟩))

/-- **In the course of an act a key stays until it is retracted.** -/
theorem persists_of_performs (h : app.Performs a.operation t r app') : app.Persists q t app' := by
  cases performs_course h with
  | quiet same calls =>
    exact persists_of_directory (fun e he => (calls e he).1.directory) same.directory
  | add course => exact persists_addition course
  | remove course => exact persists_removal course
  | update => exact ⟨fun hq => Or.inl (mem_keys_showing.2 hq), fun hq => hq⟩

theorem History.persists (h : app.History acts t app') : app.Persists q t app' := by
  induction h with
  | nil => exact fun hq => hq
  | cons first rest ih => exact (persists_of_performs first).append ih

/-! ### Stranded entries -/

/-- A path is stranded if it was listed at a moment when the retraction of another node of its
service failed, and has not been retracted since. -/
def Stranded (t : List (Exchange Application)) (q : ObjectPath) : Prop :=
  ∃ before e after, t = before ++ e :: after ∧ e.FailsBelow q.owner ∧
    q ∈ e.state.directory.keys ∧ ∀ f ∈ after, ¬ f.Retracts q

theorem Stranded.append (h : Stranded t q) (hretracts : ∀ e ∈ u, ¬ e.Retracts q) :
    Stranded (t ++ u) q := by
  obtain ⟨before, e, after, rfl, hfails, hkey, hafter⟩ := h
  refine ⟨before, e, after ++ u, by simp, hfails, hkey, fun f hf => ?_⟩
  rcases List.mem_append.1 hf with hf | hf
  · exact hafter f hf
  · exact hretracts f hf

/-- **What is stranded is listed.** -/
theorem History.mem_keys_of_stranded (past : app.History acts t app') (h : Stranded t q) :
    q ∈ app'.directory.keys := by
  obtain ⟨before, e, after, rfl, -, hkey, hafter⟩ := h
  exact past.persists.of_split.mem_keys hkey hafter

theorem not_retracts_of_addition (course : Addition app s t r app') {e : Exchange Application}
    (he : e ∈ t) : ¬ e.Retracts q := by
  have hexporting : ∀ {nodes}, e ∈ app.exporting nodes → ¬ e.Retracts q := by
    intro nodes he
    obtain ⟨n, -, rfl⟩ := mem_exporting he
    exact fun h => h
  have hannouncing : ∀ {nodes}, e ∈ (app.adopt s).announcing nodes → ¬ e.Retracts q := by
    intro nodes he
    obtain ⟨before, n, after, -, rfl⟩ := mem_announcing he
    exact fun h => h
  cases course with
  | refused => cases he
  | rolledBack welcome nodes withdrawals =>
    rcases List.mem_append.1 he with he | he
    · exact hexporting he
    · rcases List.mem_cons.1 he with rfl | he
      · exact fun h => h
      · obtain ⟨-, n, -, hcall⟩ := mem_of_question withdrawals he
        rw [Exchange.Retracts, hcall]
        exact fun h => h
  | unpublished =>
    rcases List.mem_append.1 he with he | he
    · exact hexporting he
    · rw [List.mem_singleton.1 he]
      exact fun h => h
  | unannounced =>
    simp only [List.mem_append, List.mem_cons, List.not_mem_nil, or_false] at he
    rcases he with he | rfl | he | rfl
    · exact hexporting he
    · exact fun h => h
    · exact hannouncing he
    · exact fun h => h
  | completed =>
    rcases List.mem_append.1 he with he | he
    · exact hexporting he
    · rcases List.mem_cons.1 he with rfl | he
      · exact fun h => h
      · exact hannouncing he

theorem notMem_keys_of_removal (course : Removal app s t r app') {e : Exchange Application}
    (he : e ∈ t) (hretracts : e.Retracts q) : q ∉ app'.directory.keys := by
  have hretracting : ∀ {gone : Application} {nodes}, e ∈ gone.retracting nodes →
      q ∈ nodes.map Node.path := by
    intro gone nodes he
    obtain ⟨before, n, after, interfaces, rfl, rfl⟩ := mem_retracting he
    obtain rfl : n.path = q := hretracts
    simp
  have hwithdrawing : ∀ {gone : Application} {nodes}, e ∉ gone.withdrawing nodes := by
    intro gone nodes he
    obtain ⟨n, -, rfl⟩ := mem_withdrawing he
    exact hretracts
  cases course with
  | absent => cases he
  | @interrupted live done rest n interfaces e' found nodes listed =>
    refine fun hkey => (mem_keys_leave.1 hkey).2 ?_
    rw [List.map_append, List.mem_append]
    rcases List.mem_append.1 he with he | he
    · exact Or.inl (hretracting he)
    · rw [List.mem_singleton.1 he] at hretracts
      exact Or.inr (List.mem_singleton.2 (Eq.symm hretracts))
  | stuck =>
    simp only [List.mem_append, List.mem_cons, List.not_mem_nil, or_false] at he
    rcases he with he | he | rfl
    · exact fun hkey => (mem_keys_leave.1 hkey).2 (hretracting he)
    · exact absurd he hwithdrawing
    · exact hretracts.elim
  | withdrawn =>
    simp only [List.mem_append, List.mem_cons, List.not_mem_nil, or_false] at he
    rcases he with he | he | rfl
    · exact fun hkey => (mem_keys_leave.1 hkey).2 (hretracting he)
    · exact absurd he hwithdrawing
    · exact hretracts.elim

/-- What an act retracts is not listed at its end. -/
theorem notMem_keys_of_retracts (h : app.Performs a.operation t r app') {e : Exchange Application}
    (he : e ∈ t) (hretracts : e.Retracts q) : q ∉ app'.directory.keys := by
  cases performs_course h with
  | quiet same calls =>
    have haside := (calls e he).2
    obtain ⟨state, call, answer⟩ := e
    cases call <;> first | exact hretracts.elim | exact haside.elim
  | add course => exact absurd hretracts (not_retracts_of_addition course he)
  | remove course => exact notMem_keys_of_removal course he hretracts
  | update =>
    rw [List.mem_singleton.1 he] at hretracts
    exact hretracts.elim

/-! ### Every entry is accounted for -/

/-- What is listed is live, or stranded by the exchanges so far. -/
structure Accounted (t : List (Exchange Application)) (app : Application) : Prop where
  tidy : app.Tidy fun _ => True
  listed : ∀ q ∈ app.directory.keys, q ∈ app.nodes.map Node.path ∨ Stranded t q

namespace Accounted

theorem addition (h : Accounted u app) (hs : s.Rooted root) (course : Addition app s t r app') :
    Accounted (u ++ t) app' := by
  have hstranded : ∀ q, Stranded u q → Stranded (u ++ t) q := fun q hq =>
    hq.append fun e he => not_retracts_of_addition course he
  have hold : ∀ q ∈ app.directory.keys, q ∈ app.nodes.map Node.path ∨ Stranded (u ++ t) q :=
    fun q hq => (h.listed q hq).imp_right (hstranded q)
  -- once the service is live, all its nodes may enter
  have hlive : app.Welcomes s → ∀ done rest, s.nodes = done ++ rest →
      Accounted (u ++ t) ((app.adopt s).enter done) := by
    intro welcome done rest hnodes
    have htidy := h.tidy.adopt trivial hs welcome.2
    refine ⟨htidy.enter, fun q hq => ?_⟩
    have hnodup := hs.nodup_paths_of_append hnodes
    have hall : ((app.adopt s).enter done).nodes = app.nodes ++ s.nodes := nodes_adopt
    rw [hall, List.map_append, List.mem_append]
    rcases (mem_keys_enter hnodup).1 hq with hq | hq
    · exact (hold q hq).imp_left Or.inl
    · rw [hnodes, List.map_append, List.mem_append]
      exact Or.inl (Or.inr (Or.inl hq))
  cases course with
  | refused => exact ⟨h.tidy, hold⟩
  | rolledBack => exact ⟨h.tidy, hold⟩
  | unpublished welcome => exact hlive welcome [] s.nodes rfl
  | @unannounced done rest n e welcome nodes =>
    exact hlive welcome (done ++ [n]) rest (by simpa using nodes)
  | completed welcome => exact hlive welcome s.nodes [] (List.append_nil _).symm

/-- A service is given up and some nodes are taken out.  What is left is accounted for if the nodes
of the service are. -/
theorem disown_leave (h : Accounted u app) {live : Service}
    (found : app.service? s.path = some live)
    (hold : ∀ q ∈ ((app.disown s.path).leave nodes).directory.keys,
      Stranded u q → Stranded (u ++ t) q)
    (hgone : ∀ n ∈ live.nodes, n.path ∈ ((app.disown s.path).leave nodes).directory.keys →
      Stranded (u ++ t) n.path) :
    Accounted (u ++ t) ((app.disown s.path).leave nodes) := by
  obtain ⟨hlive, hpath⟩ := mem_of_service? found
  refine ⟨h.tidy.disown.leave, fun q hq => ?_⟩
  rcases h.listed q (mem_keys_leave.1 hq).1 with hnode | hstranded
  · obtain ⟨n, hn, rfl⟩ := List.mem_map.1 hnode
    by_cases howner : n.path.owner = s.path
    · exact Or.inr (hgone n (h.tidy.mem_nodes_of_owner hn hlive (howner.trans hpath.symm)) hq)
    · exact Or.inl (List.mem_map_of_mem (h.tidy.mem_nodes_disown.2 ⟨hn, howner⟩))
  · exact Or.inr (hold q hq hstranded)

/-- A node that is left when a retraction fails is stranded.  The service itself is retracted last,
so it was another node whose retraction failed. -/
theorem stranded_of_interrupted {live : Service} (hlive : live.Rooted root)
    {done rest : List Node} {m : Node} {interfaces : InterfaceMap} {e : Error}
    (hnodes : live.nodes.reverse = done ++ n :: rest) (hm : m ∈ live.nodes)
    (hkey : m.path ∈ (app.leave (done ++ [n])).directory.keys) :
    Stranded (t ++ [⟨app.leave (done ++ [n]), n.retracted p interfaces, .error e⟩]) m.path := by
  have hsplit : live.nodes = rest.reverse ++ n :: done.reverse := by
    rw [← List.reverse_reverse live.nodes, hnodes]
    simp
  have hn : n ∈ live.nodes := by
    rw [hsplit]
    simp
  have hrest : rest.reverse ≠ [] := by
    intro hnil
    rw [hnil, List.nil_append] at hsplit
    refine (mem_keys_leave.1 hkey).2 (List.mem_map_of_mem ?_)
    rw [hsplit] at hm
    simpa [or_comm] using hm
  have hbelow : n.path.IsBelow live.path := ⟨hlive.isWithin hn, hlive.path_ne hsplit hrest⟩
  refine ⟨t, _, [], rfl, ?_, hkey, by simp⟩
  rw [hlive.owner_eq hm]
  exact ⟨hbelow, fun hsucceeded => nomatch hsucceeded⟩

/-- **What a removal leaves of a service is stranded.** -/
theorem removal (h : Accounted u app) (course : Removal app s t r app') :
    Accounted (u ++ t) app' := by
  have hold : ∀ q ∈ app'.directory.keys, Stranded u q → Stranded (u ++ t) q :=
    fun q hq hstranded => hstranded.append fun e he hretracts =>
      notMem_keys_of_removal course he hretracts hq
  have hall : ∀ {live : Service}, ∀ n ∈ live.nodes,
      n.path ∉ ((app.disown s.path).leave live.nodes.reverse).directory.keys := by
    intro live n hn hkey
    refine (mem_keys_leave.1 hkey).2 ?_
    rw [List.map_reverse, List.mem_reverse]
    exact List.mem_map_of_mem hn
  cases course with
  | absent => exact ⟨h.tidy, fun q hq => (h.listed q hq).imp_right (hold q hq)⟩
  | interrupted found nodes listed =>
    obtain ⟨hlive, -⟩ := mem_of_service? found
    obtain ⟨root, -, hrooted⟩ := h.tidy.rooted _ hlive
    refine h.disown_leave found hold fun m hm hkey => ?_
    rw [← List.append_assoc]
    exact stranded_of_interrupted hrooted nodes hm hkey
  | stuck found => exact h.disown_leave found hold fun n hn hkey => absurd hkey (hall n hn)
  | withdrawn found => exact h.disown_leave found hold fun n hn hkey => absurd hkey (hall n hn)

theorem performs (h : Accounted u app) (made : a.Uses fun s => ∃ root, s.Made root)
    (performs : app.Performs a.operation t r app') : Accounted (u ++ t) app' := by
  have hstranded : ∀ q ∈ app'.directory.keys, Stranded u q → Stranded (u ++ t) q :=
    fun q hq hstranded => hstranded.append fun e he hretracts =>
      notMem_keys_of_retracts performs he hretracts hq
  cases performs_course performs with
  | quiet same =>
    refine ⟨h.tidy.of_services same.services, fun q hq => ?_⟩
    rw [same.nodes]
    exact (h.listed q (same.directory ▸ hq)).imp_right (hstranded q hq)
  | add course =>
    obtain ⟨root, hmade⟩ := made
    exact h.addition hmade.rooted course
  | remove course => exact h.removal course
  | update found =>
    refine ⟨h.tidy.showing found, fun q hq => ?_⟩
    rw [h.tidy.paths_showing found]
    exact (h.listed q (mem_keys_showing.1 hq)).imp_right (hstranded q hq)

theorem history {id : AppId} {profile : Profile} (past : (fresh id profile).History acts t app)
    (made : ∀ a ∈ acts, a.Uses fun s => ∃ root, s.Made root) : Accounted t app :=
  past.induct (fun made hpast hperforms => hpast.performs made hperforms) made
    ⟨.fresh id profile, fun _ hq => absurd hq List.not_mem_nil⟩

end Accounted

/-! ### Removed and gone -/

/-- After a removal that reports success no service of the path is live. -/
theorem path_ne_of_removed (h : app.Tidy roots)
    (removes : app.Performs (removeService s) t (.ok ()) app') {v : Service}
    (hv : v ∈ app'.services) : v.path ≠ s.path := by
  generalize hr : (Except.ok () : Answer) = r at removes
  cases performs_removeService removes with
  | absent hnone => exact service?_eq_none.1 hnone v hv
  | interrupted => cases hr
  | stuck => cases hr
  | withdrawn => exact (h.mem_disown.1 hv).2

/-- **A removed service is gone exactly if nothing of it was stranded.**  After a removal that
reports success nothing is listed at the path of the service or below it, if and only if no path
there has been stranded by an earlier removal, and no other service that is live below lists a node
of its own.  The bus may fail any call at any time. -/
theorem removed_is_gone_iff {id : AppId} {profile : Profile}
    (past : (fresh id profile).History acts t app)
    (made : ∀ a ∈ acts, a.Uses fun s => ∃ root, s.Made root) (hs : s.Made root)
    (removes : app.Performs (removeService s) u (.ok ()) app') :
    (∀ q ∈ app'.directory.keys, ¬ q.IsWithin s.path) ↔
      (∀ q, q.IsWithin s.path → ¬ Stranded (t ++ u) q) ∧
        ∀ v ∈ app'.services, v.path.IsBelow s.path →
          ∀ n ∈ v.nodes, n.path ∉ app'.directory.keys := by
  have hpast : (fresh id profile).History (acts ++ [.remove s]) (t ++ u) app' :=
    past.snoc (a := .remove s) removes
  have hmade : ∀ a ∈ acts ++ [.remove s], a.Uses fun s => ∃ root, s.Made root := by
    intro a ha
    rcases List.mem_append.1 ha with ha | ha
    · exact made a ha
    · rw [List.mem_singleton.1 ha]
      exact ⟨root, hs⟩
  have haccounted := Accounted.history hpast hmade
  constructor
  · intro hgone
    refine ⟨fun q hq hstranded => hgone q (hpast.mem_keys_of_stranded hstranded) hq,
      fun v hv hbelow n hn hkey => hgone n.path hkey ?_⟩
    obtain ⟨root', -, hrooted⟩ := haccounted.tidy.rooted v hv
    exact hbelow.1.trans (hrooted.isWithin hn)
  · rintro ⟨hstranded, hbelow⟩ q hq hwithin
    rcases haccounted.listed q hq with hlive | hleft
    · obtain ⟨n, hn, rfl⟩ := List.mem_map.1 hlive
      obtain ⟨v, hv, hnv⟩ := mem_nodes.1 hn
      obtain ⟨root', -, hrooted⟩ := haccounted.tidy.rooted v hv
      have hvs : v.path.IsWithin s.path := by
        rw [← hrooted.owner_eq hnv]
        exact hwithin.owner hs.rooted.owner_path
      have hne := path_ne_of_removed (Accounted.history past made).tidy removes hv
      exact hbelow v hv ⟨hvs, hne⟩ n hnv hq
    · exact hstranded q hwithin hleft

/-- A removal that is interrupted at the first retraction. -/
def interruptedRemoval : List Act := [.run, .add Sample.battery, .remove Sample.battery]

/-- The application after the interrupted removal, with the exchanges that led there. -/
def interrupted : List (Exchange Application) × Application × List Answer :=
  play Sample.answering (fresh 0 Sample.profile) interruptedRemoval
    (List.replicate 10 (.ok ()) ++ [Sample.failure])

/-- The removal that follows: no call is made. -/
def interruptedAgain : List (Exchange Application) × (Answer × Application) × List Answer :=
  (interrupted.2.1.script (removeService Sample.battery)).record Sample.answering []

theorem uses_interruptedRemoval :
    ∀ a ∈ interruptedRemoval, a.Uses fun s => ∃ root, s.Made root := by
  intro a ha
  simp only [interruptedRemoval, List.mem_cons, List.not_mem_nil, or_false] at ha
  rcases ha with rfl | rfl | rfl
  · trivial
  · exact ⟨_, Sample.made_battery⟩
  · exact ⟨_, Sample.made_battery⟩

/-- The hypotheses are satisfiable: after the interrupted removal, the next one reports success,
and what it leaves is stranded. -/
theorem removed_is_gone_iff_interrupted :
    interruptedAgain.2.1.1 = .ok () ∧
      ((∀ q ∈ interruptedAgain.2.1.2.directory.keys, ¬ q.IsWithin Sample.battery.path) ↔
        (∀ q, q.IsWithin Sample.battery.path →
          ¬ Stranded (interrupted.1 ++ interruptedAgain.1) q) ∧
        ∀ v ∈ interruptedAgain.2.1.2.services, v.path.IsBelow Sample.battery.path →
          ∀ n ∈ v.nodes, n.path ∉ interruptedAgain.2.1.2.directory.keys) := by
  refine ⟨by decide, removed_is_gone_iff (history_play ..) uses_interruptedRemoval
    Sample.made_battery ?_⟩
  exact performs_record Sample.answering interrupted.2.1 (removeService Sample.battery) []

/-- **A removal can report success and leave entries behind**: the service and its characteristic
are still listed after the second removal. -/
theorem not_removed_is_gone :
    ¬ ∀ (acts : List Act) (t u : List (Exchange Application)) (app app' : Application)
      (s : Service), (fresh 0 Sample.profile).History acts t app →
      (∀ a ∈ acts, a.Uses fun s => ∃ root, s.Made root) → (∃ root, s.Made root) →
      app.Performs (removeService s) u (.ok ()) app' →
      ∀ q ∈ app'.directory.keys, ¬ q.IsWithin s.path := by
  intro hgone
  have hperforms : interrupted.2.1.Performs (removeService Sample.battery) interruptedAgain.1
      (.ok ()) interruptedAgain.2.1.2 :=
    performs_record Sample.answering interrupted.2.1 (removeService Sample.battery) []
  have hkey : Sample.batteryPath ∈ interruptedAgain.2.1.2.directory.keys := by decide
  exact hgone _ _ _ _ _ _ (history_play ..) uses_interruptedRemoval ⟨_, Sample.made_battery⟩
    hperforms Sample.batteryPath hkey (List.prefix_refl _)

end Application
end GattServer
