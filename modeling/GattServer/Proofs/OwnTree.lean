/-
# The tree of an application

An application publishes its own tree if every live service carries one of the numbers that it has
given, and if its description has one name for each live node, the path of the node without that of
the application (`Application.OwnTree`).

It does as long as every live service has a path that the application allocated, and otherwise it
does not (`Workshop.own_tree_iff`).  Nothing in adding a service checks this, other than when a
characteristic or a descriptor is attached.  A service that lies outside the application is
published under its own path, and described under a name that stands for another path; so two
services may share one name (`Workshop.not_own_tree`).
-/

import GattServer.Proofs.Allocation
import GattServer.Proofs.Views

namespace GattServer

/-! ### One name for each node -/

namespace Introspection

theorem perm_insertName {name : String} {names : List String} (h : name ∉ names) :
    (insertName name names).Perm (name :: names) := by
  induction names with
  | nil => exact .refl _
  | cons first rest ih =>
    rw [List.mem_cons, not_or] at h
    rw [insertName, if_neg h.1]
    split_ifs
    · exact .refl _
    · exact ((ih h.2).cons first).trans (.swap name first rest)

/-- **Different names are all there, once.** -/
theorem perm_children_ofTree {root : String} {paths : List String}
    (h : (paths.map (childName root)).Nodup) :
    (ofTree root paths).children.Perm (paths.map (childName root)) := by
  induction paths with
  | nil => exact .refl _
  | cons path paths ih =>
    obtain ⟨hnew, hrest⟩ := List.nodup_cons.1 h
    have hperm := ih hrest
    have hnew' : childName root path ∉ (ofTree root paths).children :=
      fun hmem => hnew (hperm.mem_iff.1 hmem)
    exact (perm_insertName hnew').trans (hperm.cons _)

end Introspection

namespace Application

variable {app app' : Application} {a : Act} {t : List (Exchange Application)} {r : Answer}

/-- **An application publishes its own tree.**  The live services carry numbers that were given, of
which there are `n`; the description has as many names as there are live nodes; and the names, put
behind the path of the application, are the paths of these nodes. -/
structure OwnTree (app : Application) (n : Nat) : Prop where
  numbered : ∀ s ∈ app.services, ∃ k, 1 ≤ k ∧ k ≤ n ∧
    s.path.text = app.path.stem ++ "/service" ++ toString k
  children : app.tree.children.length = app.nodes.length
  joined : (app.tree.children.map (app.path.stem ++ "/" ++ ·)).Perm
    (app.nodes.map fun n => n.path.text)

/-- The names, put behind the path of the application, are the paths of the live nodes. -/
theorem Tidy.map_names (h : app.Tidy (· = app.path)) :
    (app.nodes.map fun n => Introspection.childName app.path.text n.path.text).map
      (app.path.stem ++ "/" ++ ·) = app.nodes.map fun n => n.path.text := by
  rw [List.map_map]
  exact List.map_congr_left fun n hn => h.name_eq hn

/-- **Live services below the application** are described node by node. -/
theorem Tidy.perm_children (h : app.Tidy (· = app.path)) :
    app.tree.children.Perm
      (app.nodes.map fun n => Introspection.childName app.path.text n.path.text) := by
  have htexts := h.nodup_paths.map_on fun p _ q _ => ObjectPath.text_injective
  rw [List.map_map] at htexts
  have hnames : (app.nodes.map fun n =>
      Introspection.childName app.path.text n.path.text).Nodup := by
    refine List.Nodup.of_map (app.path.stem ++ "/" ++ ·) ?_
    rw [h.map_names]
    exact htexts
  have hperm := @Introspection.perm_children_ofTree app.path.text
    (app.nodes.map fun n => n.path.text)
  rw [List.map_map] at hperm
  exact hperm hnames

/-- An application whose live services have paths that were allocated below it publishes its own
tree. -/
theorem OwnTree.of_allocated {n : Nat} (few : n < UInt32.size) (tidy : app.Tidy fun _ => True)
    (own : ∀ s ∈ app.services, s.path ∈ Workshop.allocated app.path n) : app.OwnTree n := by
  have below : app.Tidy (· = app.path) := by
    refine ⟨fun s hs => ?_, tidy.distinct⟩
    obtain ⟨root, -, hrooted⟩ := tidy.rooted s hs
    obtain ⟨k, hk⟩ := hrooted.path_eq
    obtain ⟨l, -, hl⟩ := List.mem_map.1 (own s hs)
    rw [hk] at hl
    exact ⟨root, (ObjectPath.push_injective hl).1.symm, hrooted⟩
  have hperm := below.perm_children
  refine ⟨fun s hs => ?_, ?_, ?_⟩
  · have htext : s.path.text ∈ (Workshop.allocated app.path n).map ObjectPath.text :=
      List.mem_map_of_mem (own s hs)
    rw [Workshop.text_allocated few] at htext
    obtain ⟨k, hk, htext⟩ := List.mem_map.1 htext
    exact ⟨k + 1, Nat.le_add_left 1 k, List.mem_range.1 hk, htext.symm⟩
  · rw [hperm.length_eq, List.length_map]
  · rw [← below.map_names]
    exact hperm.map _

/-- A live service that carries a number which was given has an allocated path. -/
theorem OwnTree.allocated {n : Nat} (few : n < UInt32.size) (h : app.OwnTree n) {s : Service}
    (hs : s ∈ app.services) : s.path ∈ Workshop.allocated app.path n := by
  obtain ⟨k, hk, hkn, htext⟩ := h.numbered s hs
  obtain ⟨l, rfl⟩ : ∃ l, k = l + 1 := ⟨k - 1, by omega⟩
  have hmem : s.path.text ∈ (Workshop.allocated app.path n).map ObjectPath.text := by
    rw [Workshop.text_allocated few, htext]
    exact List.mem_map.2 ⟨l, List.mem_range.2 hkn, rfl⟩
  obtain ⟨q, hq, hqtext⟩ := List.mem_map.1 hmem
  rwa [ObjectPath.text_injective hqtext] at hq

/-- **What is live was added**, or something was live at its path before. -/
theorem exists_of_mem_services (h : app.Performs a.operation t r app') {s : Service}
    (hs : s ∈ app'.services) :
    (∃ v ∈ app.services, v.path = s.path) ∨ ∃ v, a = .add v ∧ v.path = s.path := by
  cases performs_course h with
  | quiet same => exact Or.inl ⟨s, same.services ▸ hs, rfl⟩
  | @add v t r app' course =>
    cases course with
    | refused | rolledBack => exact Or.inl ⟨s, hs, rfl⟩
    | unpublished | unannounced | completed =>
      rcases List.mem_append.1 hs with hs | hs
      · exact Or.inl ⟨s, hs, rfl⟩
      · exact Or.inr ⟨v, rfl, by rw [List.mem_singleton.1 hs]⟩
  | remove course =>
    cases course with
    | absent => exact Or.inl ⟨s, hs, rfl⟩
    | interrupted | stuck | withdrawn => exact Or.inl ⟨s, List.mem_of_mem_eraseP hs, rfl⟩
  | update found =>
    obtain ⟨before, u, after, v, hservices, hset, rfl⟩ := setValueIn?_eq_some found
    rw [hservices]
    rcases List.mem_append.1 hs with hs | hs
    · exact Or.inl ⟨s, List.mem_append_left _ hs, rfl⟩
    rcases List.mem_cons.1 hs with rfl | hs
    · exact Or.inl ⟨u, by simp, (Service.setValue?_path hset).symm⟩
    · exact Or.inl ⟨s, by simp [hs], rfl⟩

end Application

namespace Workshop

variable {profiles : AppId → Profile} {log : List Deed} {w : Workshop} {i : AppId}

/-- An application adds only services whose paths it allocated. -/
def AddsOwn (i : AppId) (log : List Deed) : Prop :=
  ∀ s r, .performed i (.add s) r ∈ log → s.path ∈ created i log

/-- Every live service has the path of one that was passed to the application. -/
def WasAdded (i : AppId) (log : List Deed) (app : Application) : Prop :=
  ∀ s ∈ app.services, ∃ v r, .performed i (.add v) r ∈ log ∧ v.path = s.path

theorem WasAdded.append {app : Application} (h : WasAdded i log app) (more : List Deed) :
    WasAdded i (log ++ more) app := by
  intro s hs
  obtain ⟨v, r, hlog, hpath⟩ := h s hs
  exact ⟨v, r, List.mem_append_left _ hlog, hpath⟩

theorem Run.wasAdded (run : Run profiles log w) : ∀ i, WasAdded i log (w.apps i) := by
  induction run with
  | start => exact fun i s hs => absurd hs List.not_mem_nil
  | @step log w w' deed run h ih =>
    have before (j : AppId) : WasAdded j (log ++ [deed]) (w.apps j) := (ih j).append _
    cases h with
    | @service i properties advertised s app' hnew =>
      obtain ⟨-, rfl⟩ := Application.createService_eq hnew
      exact forall_update (P := fun j => WasAdded j _) before (before i)
    | characteristic | descriptor | attachCharacteristic | attachDescriptor => exact before
    | @act i a t r app' offered hperforms =>
      refine forall_update (P := fun j => WasAdded j _) before fun s hs => ?_
      rcases Application.exists_of_mem_services hperforms hs with ⟨v, hv, hpath⟩ | ⟨v, rfl, hpath⟩
      · obtain ⟨u, r', hlog, hu⟩ := before i v hv
        exact ⟨u, r', hlog, hu.trans hpath⟩
      · exact ⟨v, r, by simp, hpath⟩

/-- **When an application publishes its own tree**: exactly while every live service has a path that
it allocated.  An application that adds only such services always does. -/
theorem own_tree_iff (run : Run profiles log w) (few : (created i log).length < UInt32.size) :
    ((w.apps i).OwnTree (created i log).length ↔
        ∀ s ∈ (w.apps i).services, s.path ∈ created i log) ∧
      (AddsOwn i log → (w.apps i).OwnTree (created i log).length) := by
  have hpaths : created i log = allocated (w.apps i).path (created i log).length := by
    rw [(run.kept.2 i).path]
    exact (run.counts i).2
  have own : (∀ s ∈ (w.apps i).services, s.path ∈ created i log) →
      (w.apps i).OwnTree (created i log).length := fun h =>
    .of_allocated few (run.tidy i) fun s hs => hpaths ▸ h s hs
  refine ⟨⟨fun h s hs => hpaths ▸ h.allocated few hs, own⟩, fun adds => own fun s hs => ?_⟩
  obtain ⟨v, r, hlog, hpath⟩ := run.wasAdded i s hs
  exact hpath ▸ adds v r hlog

/-- Applications at `/app`, at `/x`, and at `/app/x`. -/
def neighbours : AppId → Profile
  | 0 => Sample.profile
  | 1 =>
    { settings := { name := "org.example.near", path := "/x" },
      path := ⟨[⟨"x", by decide, by decide⟩]⟩ }
  | _ =>
    { settings := { name := "org.example.below", path := "/app/x" },
      path := Sample.profile.path.push ⟨"x", by decide, by decide⟩ }

/-- A service without characteristics, the first one of an application. -/
def firstService (i : AppId) : Service :=
  .new ((neighbours i).path.push (Segment.service.numbered 1)) ⟨.ofAlias 0x180F, true⟩ true

/-- An application after it has created a service. -/
def createdOne (i : AppId) : Application := { Application.fresh i (neighbours i) with created := 1 }

/-- A step in which an application performs an act on a bus that says yes to everything. -/
theorem Step.approved (w : Workshop) (i : AppId) (a : Act) (offered : a.Offers w.services) :
    let done := (((w.apps i).script a.operation).record Sample.answering []).2.1
    w.Step (.performed i a done.1) (w.update i done.2) :=
  .act offered (Application.performs_record Sample.answering _ _ [])

/-- The hypotheses are satisfiable, and the first application publishes its own tree: it runs and
adds the service it created, while another application has created one, too. -/
theorem own_tree_iff_neighbours : ∃ log w, Run neighbours log w ∧
    (created 0 log).length = 1 ∧ AddsOwn 0 log ∧ (w.apps 0).nodes.length = 1 ∧
    (w.apps 0).OwnTree 1 := by
  have run := (Run.start : Run neighbours [] _)
    |>.step (@Step.service _ 0 _ _ (firstService 0) (createdOne 0) rfl)
    |>.step (@Step.service _ 1 _ _ (firstService 1) (createdOne 1) rfl)
    |>.step (.approved _ 0 .run trivial)
    |>.step (.approved _ 0 (.add (firstService 0)) (.tail _ (.head _)))
  refine ⟨_, _, run, by decide, ?adds, by decide, (own_tree_iff run (by decide)).2 ?adds⟩
  intro s r h
  simp only [List.nil_append, List.cons_append, List.mem_cons, List.not_mem_nil, or_false,
    reduceCtorEq, false_or, Deed.performed.injEq, Act.add.injEq, true_and, false_and,
    and_false] at h
  obtain ⟨rfl, -⟩ := h
  exact List.mem_cons_self

/-- **An application may publish what is not its own tree.**  The first application adds a service
of each of the others.  One of them lies outside, and the description has one name for both. -/
theorem not_own_tree : ∃ log w, Run neighbours log w ∧ (created 0 log).length = 0 ∧
    (w.apps 0).services = [firstService 1, firstService 2] ∧
    (w.apps 0).tree.children = ["x/service1"] ∧ ¬ (w.apps 0).OwnTree (created 0 log).length := by
  have run := (Run.start : Run neighbours [] _)
    |>.step (@Step.service _ 1 _ _ (firstService 1) (createdOne 1) rfl)
    |>.step (@Step.service _ 2 _ _ (firstService 2) (createdOne 2) rfl)
    |>.step (.approved _ 0 .run trivial)
    |>.step (.approved _ 0 (.add (firstService 1)) (.tail _ (.head _)))
    |>.step (.approved _ 0 (.add (firstService 2)) (.head _))
  exact ⟨_, _, run, by decide, by decide, by decide, fun h => absurd h.children (by decide)⟩

end Workshop
end GattServer
