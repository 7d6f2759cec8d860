/-
# The steps on the state

An operation changes the state of an application by five steps: it adopts a service, disowns one,
shows another value, and enters nodes into the directory or takes them out.  This module says what
each of them does to the live services, their nodes and the entries of the directory.

Throughout, the live services are well-formed and their paths differ (`Application.Tidy`).  The
owner of a node's path then tells which live service the node belongs to, so live services have no
node path in common.
-/

import GattServer.Proofs.Held
import GattServer.Proofs.Subtree

namespace GattServer

namespace FinMap

variable {κ ν : Type} [DecidableEq κ] {m : FinMap κ ν} {k : κ}

theorem find?_of_mem {v : ν} (h : (k, v) ∈ m.entries) : m.find? k = some v := by
  have hsome : (m.find? k).isSome := mem_keys_iff.1 (List.mem_map_of_mem (f := Prod.fst) h)
  obtain ⟨e, he, hv⟩ := Option.map_eq_some_iff.1 (Option.some_get hsome).symm
  have hkey : e.1 = k := by simpa using List.find?_some he
  rw [List.inj_on_of_nodup_map m.nodup (List.mem_of_find?_eq_some he) h hkey] at hv
  rw [← Option.some_get hsome, ← hv]

theorem mem_keys_of_find? {v : ν} (h : m.find? k = some v) : k ∈ m.keys := by
  rw [mem_keys_iff, h]
  rfl

/-- Changing an entry to what it is changes nothing. -/
theorem modify_of_fixed {f : ν → ν} (h : ∀ v ∈ m.find? k, f v = v) : m.modify k f = m := by
  have hentry : ∀ e ∈ m.entries, (if e.1 = k then (e.1, f e.2) else e) = e := by
    rintro ⟨l, v⟩ he
    split_ifs with hl
    · obtain rfl : l = k := hl
      rw [h v (find?_of_mem he)]
    · rfl
  obtain ⟨entries, nodup⟩ := m
  simp only [modify, mk.injEq]
  exact (List.map_congr_left hentry).trans (List.map_id' _)

end FinMap

/-- Replacing the value of an entry, as a change of the directory. -/
theorem Directory.setProperty_value (d : Directory) (path : ObjectPath) (value : List UInt8) :
    d.setProperty path Interface.characteristic "Value" (.bytes value) =
      d.modify path (InterfaceMap.withValue value) := by
  unfold setProperty setProperty?
  cases h : d.find? path with
  | none =>
    have hfixed : d.modify path (InterfaceMap.withValue value) = d :=
      FinMap.modify_of_fixed (by simp [h])
    rw [hfixed]
    rfl
  | some interfaces =>
    by_cases hi : interfaces.contains Interface.characteristic
    · simp only [hi, if_true]
      rfl
    · have hnone : interfaces.find? Interface.characteristic = none := by
        simpa [FinMap.contains] using hi
      have hsame : interfaces.withValue value = interfaces :=
        FinMap.modify_of_fixed (by simp [hnone])
      have hfixed : d.modify path (InterfaceMap.withValue value) = d :=
        FinMap.modify_of_fixed fun v hv => by
          rw [h, Option.mem_some_iff] at hv
          exact hv ▸ hsame
      rw [hfixed]
      simp [hi]

namespace Application

variable {roots : ObjectPath → Prop} {root : ObjectPath} {app : Application} {s v : Service}
  {n : Node} {nodes : List Node} {p q : ObjectPath}

/-! ### Live services -/

theorem service?_eq_none : app.service? p = none ↔ ∀ s ∈ app.services, s.path ≠ p := by
  simp [service?]

theorem mem_of_service? (h : app.service? p = some s) : s ∈ app.services ∧ s.path = p :=
  ⟨List.mem_of_find?_eq_some h, by simpa using List.find?_some h⟩

theorem mem_nodes : n ∈ app.nodes ↔ ∃ s ∈ app.services, n ∈ s.nodes := List.mem_flatMap

theorem nodes_adopt : (app.adopt s).nodes = app.nodes ++ s.nodes := by
  simp [nodes, adopt]

/-- The live services are well-formed, each below one of some roots, and their paths differ. -/
structure Tidy (roots : ObjectPath → Prop) (app : Application) : Prop where
  rooted : ∀ s ∈ app.services, ∃ root, roots root ∧ s.Rooted root
  distinct : (app.services.map (·.path)).Nodup

namespace Tidy

theorem unique (h : app.Tidy roots) (hs : s ∈ app.services) (hv : v ∈ app.services)
    (hpath : s.path = v.path) : s = v :=
  List.inj_on_of_nodup_map h.distinct hs hv hpath

/-- Only the live services matter. -/
theorem of_services {app' : Application} (h : app.Tidy roots)
    (hservices : app'.services = app.services) : app'.Tidy roots :=
  ⟨hservices ▸ h.rooted, hservices ▸ h.distinct⟩

theorem fresh (id : AppId) (profile : Profile) : (Application.fresh id profile).Tidy roots :=
  ⟨fun _ hs => absurd hs List.not_mem_nil, List.nodup_nil⟩

theorem enter (h : app.Tidy roots) : (app.enter nodes).Tidy roots := h.of_services rfl

theorem leave (h : app.Tidy roots) : (app.leave nodes).Tidy roots := h.of_services rfl

/-- **A live node belongs to the live service that owns its path.** -/
theorem mem_nodes_of_owner (h : app.Tidy roots) (hn : n ∈ app.nodes) (hs : s ∈ app.services)
    (howner : n.path.owner = s.path) : n ∈ s.nodes := by
  obtain ⟨v, hv, hnv⟩ := mem_nodes.1 hn
  obtain ⟨root, -, hrooted⟩ := h.rooted v hv
  rwa [h.unique hs hv (howner ▸ hrooted.owner_eq hnv)]

/-- **The live nodes have different paths.** -/
theorem nodup_paths (h : app.Tidy roots) : (app.nodes.map Node.path).Nodup := by
  rw [nodes, List.map_flatMap, List.nodup_flatMap]
  constructor
  · intro v hv
    obtain ⟨root, -, hrooted⟩ := h.rooted v hv
    exact hrooted.nodup_paths
  · refine (List.pairwise_map.1 h.distinct).imp_of_mem fun {v u} hv hu hne => ?_
    obtain ⟨root, -, hrooted⟩ := h.rooted v hv
    obtain ⟨root', -, hrooted'⟩ := h.rooted u hu
    intro p hp hq
    obtain ⟨n, hn, rfl⟩ := List.mem_map.1 hp
    obtain ⟨m, hm, hpath⟩ := List.mem_map.1 hq
    exact hne (by rw [← hrooted.owner_eq hn, ← hpath, hrooted'.owner_eq hm])

/-- **Services of different paths have no node path in common.** -/
theorem path_ne (h : app.Tidy roots) (hs : s.Rooted root) (hnew : app.service? s.path = none)
    (hn : n ∈ app.nodes) {m : Node} (hm : m ∈ s.nodes) : n.path ≠ m.path := by
  intro hpath
  obtain ⟨v, hv, hnv⟩ := mem_nodes.1 hn
  obtain ⟨root', -, hrooted⟩ := h.rooted v hv
  refine service?_eq_none.1 hnew v hv ?_
  rw [← hrooted.owner_eq hnv, hpath, hs.owner_eq hm]

theorem adopt (h : app.Tidy roots) (hroot : roots root) (hs : s.Rooted root)
    (hnew : app.service? s.path = none) : (app.adopt s).Tidy roots := by
  refine ⟨fun v hv => ?_, ?_⟩
  · rcases List.mem_append.1 hv with hv | hv
    · exact h.rooted v hv
    · rw [List.mem_singleton.1 hv]
      exact ⟨root, hroot, hs⟩
  · rw [Application.adopt, List.map_append, List.nodup_append]
    refine ⟨h.distinct, List.nodup_singleton _, fun p hp q hq => ?_⟩
    obtain ⟨v, hv, rfl⟩ := List.mem_map.1 hp
    rw [List.map_singleton, List.mem_singleton] at hq
    exact hq ▸ service?_eq_none.1 hnew v hv

/-- **Disowning a path leaves the live services of the other paths**, in their order. -/
theorem services_disown (h : app.Tidy roots) :
    (app.disown p).services = app.services.filter fun s => s.path ≠ p := by
  have hdistinct := h.distinct
  show app.services.eraseP (fun s => s.path = p) = _
  generalize app.services = ss at hdistinct
  induction ss with
  | nil => rfl
  | cons s ss ih =>
    obtain ⟨hs, hss⟩ := List.nodup_cons.1 hdistinct
    by_cases hp : s.path = p
    · have hother : ∀ v ∈ ss, v.path ≠ p := fun v hv hvp =>
        hs (List.mem_map.2 ⟨v, hv, hvp.trans hp.symm⟩)
      rw [List.eraseP_cons_of_pos (by simpa using hp), List.filter_cons_of_neg (by simpa using hp)]
      exact (List.filter_eq_self.2 fun v hv => by simpa using hother v hv).symm
    · rw [List.eraseP_cons_of_neg (by simpa using hp), List.filter_cons_of_pos (by simpa using hp),
        ih hss]

theorem mem_disown (h : app.Tidy roots) :
    v ∈ (app.disown p).services ↔ v ∈ app.services ∧ v.path ≠ p := by
  simp [h.services_disown]

/-- The live nodes after disowning a path are those that it does not own. -/
theorem mem_nodes_disown (h : app.Tidy roots) :
    n ∈ (app.disown p).nodes ↔ n ∈ app.nodes ∧ n.path.owner ≠ p := by
  simp only [mem_nodes, h.mem_disown]
  constructor
  · rintro ⟨v, ⟨hv, hne⟩, hn⟩
    obtain ⟨root, -, hrooted⟩ := h.rooted v hv
    exact ⟨⟨v, hv, hn⟩, hrooted.owner_eq hn ▸ hne⟩
  · rintro ⟨⟨v, hv, hn⟩, hne⟩
    obtain ⟨root, -, hrooted⟩ := h.rooted v hv
    exact ⟨v, ⟨hv, hrooted.owner_eq hn ▸ hne⟩, hn⟩

theorem disown (h : app.Tidy roots) : (app.disown p).Tidy roots :=
  ⟨fun s hs => h.rooted s (h.mem_disown.1 hs).1,
    h.distinct.sublist (List.eraseP_sublist.map _)⟩

end Tidy

section Courses

variable {app' : Application} {t : List (Exchange Application)} {r : Answer}

/-- Adding a well-formed service keeps the live services well-formed and apart. -/
theorem Addition.tidy (course : Addition app s t r app') (tidy : app.Tidy roots)
    (hroot : roots root) (hs : s.Rooted root) : app'.Tidy roots := by
  cases course with
  | refused | rolledBack => exact tidy
  | unpublished welcome => exact tidy.adopt hroot hs welcome.2
  | unannounced welcome | completed welcome => exact (tidy.adopt hroot hs welcome.2).enter

theorem Removal.tidy (course : Removal app s t r app') (tidy : app.Tidy roots) :
    app'.Tidy roots := by
  cases course with
  | absent => exact tidy
  | interrupted | stuck | withdrawn => exact tidy.disown.leave

end Courses

/-! ### Entries of the directory -/

theorem find?_enter_of_notMem (h : q ∉ nodes.map Node.path) :
    (app.enter nodes).directory.find? q = app.directory.find? q := by
  induction nodes generalizing app with
  | nil => rfl
  | cons n ns ih =>
    rw [List.map_cons, List.mem_cons, not_or] at h
    rw [enter_cons app n ns, ih h.2]
    exact FinMap.find?_insert_of_ne _ _ h.1

/-- **Nodes of different paths are all entered** with their properties. -/
theorem find?_enter_of_mem (h : (nodes.map Node.path).Nodup) (hn : n ∈ nodes) :
    (app.enter nodes).directory.find? n.path = some n.interfaces := by
  induction nodes generalizing app with
  | nil => cases hn
  | cons m ms ih =>
    obtain ⟨hm, hms⟩ := List.nodup_cons.1 h
    rw [enter_cons app m ms]
    rcases List.mem_cons.1 hn with rfl | hn
    · rw [find?_enter_of_notMem hm]
      exact FinMap.find?_insert_self _ _ _
    · exact ih hms hn

theorem find?_leave :
    (app.leave nodes).directory.find? q =
      if q ∈ nodes.map Node.path then none else app.directory.find? q := by
  induction nodes generalizing app with
  | nil => rfl
  | cons n ns ih =>
    rw [leave_cons app n ns, ih, List.map_cons]
    by_cases hq : q = n.path
    · simp [hq, show (app.leave [n]).directory.find? n.path = none from FinMap.find?_erase_self _ _]
    · simp [hq, show (app.leave [n]).directory.find? q = app.directory.find? q from
        FinMap.find?_erase_of_ne _ hq]

theorem mem_keys_enter (h : (nodes.map Node.path).Nodup) :
    q ∈ (app.enter nodes).directory.keys ↔
      q ∈ app.directory.keys ∨ q ∈ nodes.map Node.path := by
  rw [FinMap.mem_keys_iff, FinMap.mem_keys_iff]
  by_cases hq : q ∈ nodes.map Node.path
  · obtain ⟨n, hn, rfl⟩ := List.mem_map.1 hq
    simp [find?_enter_of_mem h hn, hq]
  · rw [find?_enter_of_notMem hq, or_iff_left hq]

theorem mem_keys_leave :
    q ∈ (app.leave nodes).directory.keys ↔
      q ∈ app.directory.keys ∧ q ∉ nodes.map Node.path := by
  rw [FinMap.mem_keys_iff, FinMap.mem_keys_iff, find?_leave]
  by_cases hq : q ∈ nodes.map Node.path <;> simp [hq]

/-! ### Showing another value -/

variable {value : List UInt8} {services : List Service}

theorem find?_showing :
    (app.showing p value services).directory.find? q =
      if q = p then (app.directory.find? q).map (InterfaceMap.withValue value)
      else app.directory.find? q := by
  rw [showing, Directory.setProperty_value]
  split_ifs with hq
  · rw [hq, FinMap.find?_modify_self]
  · exact FinMap.find?_modify_of_ne _ _ hq

theorem mem_keys_showing :
    q ∈ (app.showing p value services).directory.keys ↔ q ∈ app.directory.keys := by
  rw [FinMap.mem_keys_iff, FinMap.mem_keys_iff, find?_showing]
  split_ifs <;> simp

theorem setValueIn?_eq_some {ss ts : List Service} (h : setValueIn? p value ss = some ts) :
    ∃ before s after t, ss = before ++ s :: after ∧ s.setValue? p value = some t ∧
      ts = before ++ t :: after := by
  induction ss generalizing ts with
  | nil => cases h
  | cons s ss ih =>
    rw [setValueIn?] at h
    cases hs : s.setValue? p value with
    | some t =>
      rw [hs] at h
      cases h
      exact ⟨[], s, ss, t, rfl, hs, rfl⟩
    | none =>
      rw [hs] at h
      obtain ⟨us, hus, rfl⟩ := Option.map_eq_some_iff.1 h
      obtain ⟨before, v, after, t, rfl, ht, rfl⟩ := ih hus
      exact ⟨s :: before, v, after, t, rfl, ht, rfl⟩

/-- **Another value changes the face of one node** and leaves every service its place. -/
theorem Tidy.faces_showing (h : app.Tidy roots)
    (hset : setValueIn? p value app.services = some services) :
    services.map (fun s => s.nodes.map Node.face) =
      app.services.map fun s => (s.nodes.map Node.face).map (Node.Face.withValue p value) := by
  obtain ⟨before, s, after, t, hservices, ht, rfl⟩ := setValueIn?_eq_some hset
  obtain ⟨root, -, hs⟩ := h.rooted s (by simp [hservices])
  have howner : p.owner = s.path := by
    obtain ⟨c, hc, rfl⟩ := Service.characteristic_of_setValue? ht
    exact hs.owner_eq (Service.mem_nodes.2 (Or.inr ⟨c, hc, Or.inl rfl⟩))
  have hother : ∀ v ∈ before ++ after,
      v.nodes.map Node.face = (v.nodes.map Node.face).map (Node.Face.withValue p value) := by
    intro v hv
    have hdistinct := h.distinct
    rw [hservices, List.map_append, List.map_cons, List.nodup_middle, List.nodup_cons,
      ← List.map_append] at hdistinct
    obtain ⟨root, -, hrooted⟩ := h.rooted v (by
      rw [hservices]
      exact (List.perm_middle.mem_iff).2 (List.mem_cons_of_mem _ hv))
    refine (List.map_congr_left fun f hf => ?_).trans (List.map_id _) |>.symm
    obtain ⟨n, hn, rfl⟩ := List.mem_map.1 hf
    refine if_neg fun hp => hdistinct.1 (List.mem_map.2 ⟨v, hv, ?_⟩)
    have hnp : n.path = p := hp
    rw [← hrooted.owner_eq hn, hnp, howner]
  rw [hservices, List.map_append, List.map_cons, List.map_append, List.map_cons,
    hs.faces_setValue ht, List.map_congr_left fun v hv => hother v (List.mem_append_left _ hv),
    List.map_congr_left fun v hv => hother v (List.mem_append_right _ hv)]

theorem Tidy.nodes_showing (h : app.Tidy roots)
    (hset : setValueIn? p value app.services = some services) :
    (app.showing p value services).nodes.map Node.face =
      (app.nodes.map Node.face).map (Node.Face.withValue p value) := by
  show (services.flatMap Service.nodes).map Node.face = ((app.services.flatMap _).map _).map _
  have hfaces := congrArg List.flatten (h.faces_showing hset)
  rw [List.map_flatMap, List.map_flatMap, List.map_flatMap, List.flatMap_def, List.flatMap_def]
  exact hfaces

theorem Tidy.pairs_showing (h : app.Tidy roots)
    (hset : setValueIn? p value app.services = some services) :
    (app.showing p value services).nodes.map Node.pair = app.nodes.map Node.pair := by
  have hpairs := congrArg (List.map fun f : Node.Face => (f.path, f.kind)) (h.nodes_showing hset)
  simp only [List.map_map, Function.comp_def, Node.Face.path_withValue,
    Node.Face.kind_withValue] at hpairs
  exact hpairs

theorem Tidy.paths_showing (h : app.Tidy roots)
    (hset : setValueIn? p value app.services = some services) :
    (app.showing p value services).nodes.map Node.path = app.nodes.map Node.path := by
  have hpaths := congrArg (List.map Prod.fst) (h.pairs_showing hset)
  simpa only [List.map_map, Function.comp_def, Node.pair] using hpaths

theorem Tidy.showing (h : app.Tidy roots)
    (hset : setValueIn? p value app.services = some services) :
    (app.showing p value services).Tidy roots := by
  obtain ⟨before, s, after, t, hservices, ht, rfl⟩ := setValueIn?_eq_some hset
  refine ⟨fun v hv => ?_, ?_⟩
  · rcases List.mem_append.1 hv with hv | hv
    · exact h.rooted v (hservices ▸ List.mem_append_left _ hv)
    · rcases List.mem_cons.1 hv with rfl | hv
      · obtain ⟨root, hroot, hs⟩ := h.rooted s (by simp [hservices])
        exact ⟨root, hroot, hs.setValue ht⟩
      · exact h.rooted v (hservices ▸ List.mem_append_right _ (List.mem_cons_of_mem _ hv))
  · have hdistinct := h.distinct
    rw [hservices] at hdistinct
    simpa [Application.showing, Service.setValue?_path ht] using hdistinct

/-- The live services after an update are those before it, up to what they show. -/
theorem Tidy.exists_of_mem_showing (h : app.Tidy roots)
    (hset : setValueIn? p value app.services = some services) (hs : s ∈ services) :
    ∃ v ∈ app.services, s.path = v.path ∧
      s.nodes.map Node.face = (v.nodes.map Node.face).map (Node.Face.withValue p value) := by
  have hmem := List.mem_map_of_mem (f := fun s => s.nodes.map Node.face) hs
  rw [h.faces_showing hset] at hmem
  obtain ⟨v, hv, hfaces⟩ := List.mem_map.1 hmem
  refine ⟨v, hv, ?_, hfaces.symm⟩
  have hhead := congrArg (fun fs => fs.head?.map Node.Face.path) hfaces
  simpa [Service.nodes, Node.face, Node.path, eq_comm] using hhead

end Application
end GattServer
