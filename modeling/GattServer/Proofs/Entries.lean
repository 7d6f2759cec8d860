/-
# Entries and the paths above them

The path of a node tells its kind, the path of the node above it and the path of its service.  What
a node is published with agrees with that (`Service.Rooted.fits`), and goes on to agree when the
value of a characteristic is replaced (`InterfaceMap.Fits.withValue`).
-/

import GattServer.Proofs.Steps

namespace GattServer

/-! ### Paths above -/

namespace ObjectPath

/-- The path above a path. -/
def parent (q : ObjectPath) : ObjectPath := ⟨q.segments.dropLast⟩

@[simp] theorem parent_push (p : ObjectPath) (s : Segment) : (p.push s).parent = p := by
  simp [parent, push]

theorem exists_push (q : ObjectPath) :
    q = root ∨ ∃ (p : ObjectPath) (s : Segment), q = p.push s := by
  obtain ⟨qs⟩ := q
  induction qs using List.reverseRecOn with
  | nil => exact Or.inl rfl
  | append_singleton ps s => exact Or.inr ⟨⟨ps⟩, s, rfl⟩

theorem owner_parent {q : ObjectPath} (h : q.kind? ≠ some .service) : q.parent.owner = q.owner := by
  rcases q.exists_push with rfl | ⟨p, s, rfl⟩
  · rfl
  · rw [kind?_push] at h
    rw [parent_push, owner_push_other p h]

theorem isNode_of_kind? {q : ObjectPath} {k : ObjectKind} (h : q.kind? = some k) :
    k.isNode = true := by
  rcases q.exists_push with rfl | ⟨p, s, rfl⟩
  · cases h
  · rw [kind?_push, Segment.kind?] at h
    split at h <;> cases h <;> rfl

end ObjectPath

/-! ### Entries -/

/-- An entry fits a path: it has the interface of the kind that the path tells, and names the path
above as that of its service or characteristic. -/
structure InterfaceMap.Fits (q : ObjectPath) (k : ObjectKind) (interfaces : InterfaceMap) :
    Prop where
  kind : q.kind? = some k
  keys : interfaces.keys = [k.interface]
  service : ∀ properties ∈ interfaces.find? Interface.characteristic,
    k = .characteristic ∧ properties.find? "Service" = some (.path q.parent)
  characteristic : ∀ properties ∈ interfaces.find? Interface.descriptor,
    k = .descriptor ∧ properties.find? "Characteristic" = some (.path q.parent)

/-- **What a node is published with fits its path.** -/
theorem Service.Rooted.fits {root : ObjectPath} {s : Service} (h : s.Rooted root) {n : Node}
    (hn : n ∈ s.nodes) : n.interfaces.Fits n.path n.kind := by
  rcases mem_nodes.1 hn with rfl | ⟨c, hc, rfl | ⟨d, hd, rfl⟩⟩
  · refine ⟨h.kind?_eq hn, rfl, ?_, ?_⟩ <;> rintro _ ⟨⟩
  · refine ⟨h.kind?_eq hn, rfl, fun properties hp => ⟨rfl, ?_⟩, by rintro _ ⟨⟩⟩
    obtain ⟨k, hk⟩ := (h.characteristics c hc).path_eq
    have hparent : c.service = (Node.characteristic s c).path.parent := by
      rw [Node.path, hk, ObjectPath.parent_push, (h.characteristics c hc).parent_eq]
    rw [← hparent]
    cases hp
    rfl
  · refine ⟨h.kind?_eq hn, rfl, by rintro _ ⟨⟩, fun properties hp => ⟨rfl, ?_⟩⟩
    have hbelongs := (h.characteristics c hc).descriptors d hd
    obtain ⟨k, hk⟩ := hbelongs.path_eq
    have hparent : d.characteristic = (Node.descriptor s c d).path.parent := by
      rw [Node.path, hk, ObjectPath.parent_push, hbelongs.parent_eq]
    rw [← hparent]
    cases hp
    rfl

theorem Service.Rooted.mem_parent? {root : ObjectPath} {s : Service} (h : s.Rooted root) {n : Node}
    (hn : n ∈ s.nodes) (hk : n.path.kind? ≠ some .service) : n.path.parent ∈ n.parent? := by
  rw [h.kind?_eq hn] at hk
  rcases mem_nodes.1 hn with rfl | ⟨c, hc, rfl | ⟨d, hd, rfl⟩⟩
  · exact absurd rfl hk
  · obtain ⟨k, hpath⟩ := (h.characteristics c hc).path_eq
    rw [Node.path, hpath, ObjectPath.parent_push, Node.parent?, (h.characteristics c hc).parent_eq]
    rfl
  · have hbelongs := (h.characteristics c hc).descriptors d hd
    obtain ⟨k, hpath⟩ := hbelongs.path_eq
    rw [Node.path, hpath, ObjectPath.parent_push, Node.parent?, hbelongs.parent_eq]
    rfl

/-- **Some first nodes of a service hold together**: the path above each of them is that of another
one, up to the service. -/
theorem Service.Rooted.parent_mem_of_append {root : ObjectPath} {s : Service} (h : s.Rooted root)
    {first rest : List Node} (hsplit : s.nodes = first ++ rest) {n : Node} (hn : n ∈ first)
    (hk : n.path.kind? ≠ some .service) : n.path.parent ∈ first.map Node.path := by
  have hmem : n ∈ s.nodes := hsplit ▸ List.mem_append_left _ hn
  obtain ⟨before, after, rfl⟩ := List.append_of_mem hn
  have hbefore := h.parentsFirst before n (after ++ rest) (by simp [hsplit]) _
    (h.mem_parent? hmem hk)
  rw [List.map_append]
  exact List.mem_append_left _ hbefore

/-- The service itself is the first of its nodes. -/
theorem Service.Rooted.owner_mem_of_append {root : ObjectPath} {s : Service} (h : s.Rooted root)
    {first rest : List Node} (hsplit : s.nodes = first ++ rest) {n : Node} (hn : n ∈ first) :
    n.path.owner ∈ first.map Node.path := by
  have hmem : n ∈ s.nodes := hsplit ▸ List.mem_append_left _ hn
  obtain ⟨head, more, rfl⟩ := List.exists_cons_of_ne_nil (List.ne_nil_of_mem hn)
  obtain ⟨rfl, -⟩ := List.cons.inj hsplit
  rw [h.owner_eq hmem]
  exact List.mem_cons_self

theorem FinMap.keys_modify {κ ν : Type} [DecidableEq κ] (m : FinMap κ ν) (k : κ) (f : ν → ν) :
    (m.modify k f).keys = m.keys := by
  rw [keys, modify, List.map_map]
  refine List.map_congr_left fun e _ => ?_
  rw [Function.comp_apply]
  split_ifs <;> rfl

theorem InterfaceMap.Fits.withValue {q : ObjectPath} {k : ObjectKind} {interfaces : InterfaceMap}
    (h : interfaces.Fits q k) (value : List UInt8) : (interfaces.withValue value).Fits q k where
  kind := h.kind
  keys := by rw [InterfaceMap.withValue, FinMap.keys_modify, h.keys]
  service properties hp := by
    rw [InterfaceMap.withValue, FinMap.find?_modify_self] at hp
    obtain ⟨old, hold, rfl⟩ := Option.map_eq_some_iff.1 hp
    rw [FinMap.find?_insert_of_ne _ _ (by decide)]
    exact h.service old hold
  characteristic properties hp := by
    rw [InterfaceMap.withValue, FinMap.find?_modify_of_ne _ _ (by decide)] at hp
    exact h.characteristic properties hp

end GattServer
