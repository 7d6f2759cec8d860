/-
# The shape of a service

However a service is put together, by creating, copying and attaching, each of its nodes lies one
numbered segment below the node that holds it (`Service.Made.rooted`).  The label of that segment
tells which kind of node it is, so a path alone says of which service it is a node: it lies in the
subtree of its owner (`Service.Rooted.owner_eq`), and services of different paths have no node path
in common, wherever their roots lie.

The nodes are listed parents first and under different paths (`Service.Rooted.parentsFirst`,
`Service.Rooted.nodup_paths`).  Showing another value at one of them changes the properties of that
node and nothing else in the list (`Service.Rooted.faces_setValue`).
-/

import GattServer.Application.Basic
import GattServer.Proofs.WrittenPath
import Mathlib.Data.List.DropRight
import Mathlib.Data.List.Nodup

namespace GattServer

/-! ### Labels -/

namespace Segment

/-- The label of services. -/
def service : Segment := ⟨serviceLabel, by decide, by decide⟩

/-- The label of characteristics. -/
def characteristic : Segment := ⟨characteristicLabel, by decide, by decide⟩

/-- The label of descriptors. -/
def descriptor : Segment := ⟨descriptorLabel, by decide, by decide⟩

/-- The kind of node that a segment can name.  The first letters of the labels differ. -/
def kind? (s : Segment) : Option ObjectKind :=
  match s.text.toList.head? with
  | some 's' => some .service
  | some 'c' => some .characteristic
  | some 'd' => some .descriptor
  | _ => none

theorem head?_numbered (label : Segment) (n : UInt32) :
    (label.numbered n).text.toList.head? = label.text.toList.head? := by
  obtain ⟨c, cs, h⟩ := List.exists_cons_of_ne_nil label.ne_nil
  rw [numbered, String.toList_append, h]
  rfl

@[simp] theorem kind?_service (n : UInt32) : (service.numbered n).kind? = some .service := by
  rw [kind?, head?_numbered]
  rfl

@[simp] theorem kind?_characteristic (n : UInt32) :
    (characteristic.numbered n).kind? = some .characteristic := by
  rw [kind?, head?_numbered]
  rfl

@[simp] theorem kind?_descriptor (n : UInt32) :
    (descriptor.numbered n).kind? = some .descriptor := by
  rw [kind?, head?_numbered]
  rfl

end Segment

namespace ObjectPath

/-! ### What a path says about its node -/

/-- The kind of node that a path can belong to. -/
def kind? (q : ObjectPath) : Option ObjectKind := q.segments.getLast?.bind Segment.kind?

/-- The path of the service that a node of the given path belongs to: the segments up to the last
one that names a service. -/
def owner (q : ObjectPath) : ObjectPath :=
  ⟨q.segments.rdropWhile fun s => s.kind? ≠ some .service⟩

@[simp] theorem kind?_push (p : ObjectPath) (s : Segment) : (p.push s).kind? = s.kind? := by
  simp [kind?, push]

theorem owner_push_service (p : ObjectPath) {s : Segment} (h : s.kind? = some .service) :
    (p.push s).owner = p.push s := by
  rw [owner, push, List.rdropWhile_concat_neg _ _ _ (by simp [h])]

theorem owner_push_other (p : ObjectPath) {s : Segment} (h : s.kind? ≠ some .service) :
    (p.push s).owner = p.owner := by
  rw [owner, push, List.rdropWhile_concat_pos _ _ _ (by simp [h])]
  rfl

@[simp] theorem owner_owner (q : ObjectPath) : q.owner.owner = q.owner :=
  congrArg mk (List.rdropWhile_idempotent _ _)

theorem isWithin_owner (q : ObjectPath) : q.IsWithin q.owner :=
  List.rdropWhile_prefix _ _

theorem push_injective {p q : ObjectPath} {s t : Segment} (h : p.push s = q.push t) :
    p = q ∧ s = t := by
  obtain ⟨ps⟩ := p
  obtain ⟨qs⟩ := q
  simp only [push, mk.injEq] at h
  obtain ⟨h₁, h₂⟩ := List.append_inj' h rfl
  exact ⟨congrArg mk h₁, (List.cons.injEq _ _ _ _ ▸ h₂).1⟩

/-- Paths that lie within each other are the same. -/
theorem IsWithin.antisymm {p q : ObjectPath} (h : q.IsWithin p) (h' : p.IsWithin q) : q = p := by
  have hsegments : p.segments = q.segments := List.IsPrefix.eq_of_length_le h h'.length_le
  exact congrArg mk hsegments.symm

/-- What a path lies below, the path above it lies within. -/
theorem IsBelow.of_push {p q : ObjectPath} {s : Segment} (h : (p.push s).IsBelow q) :
    p.IsWithin q := by
  rcases List.prefix_concat_iff.1 h.1 with heq | hprefix
  · exact absurd (congrArg mk heq).symm h.2
  · exact hprefix

/-- Where a path lies within another one, so do the parts of both up to the last service. -/
theorem IsWithin.owner {p q : ObjectPath} (h : q.IsWithin p) (hp : p.owner = p) :
    q.owner.IsWithin p := by
  obtain ⟨ps⟩ := p
  obtain ⟨qs⟩ := q
  obtain ⟨rest, rfl⟩ : ∃ rest, ps ++ rest = qs := h
  induction rest using List.reverseRecOn with
  | nil =>
    rw [List.append_nil, hp]
    exact List.prefix_refl _
  | append_singleton rest s ih =>
    have hpush : (⟨ps ++ (rest ++ [s])⟩ : ObjectPath) = push ⟨ps ++ rest⟩ s := by
      simp [push]
    rw [hpush]
    by_cases hs : s.kind? = some .service
    · rw [owner_push_service _ hs]
      exact ⟨rest ++ [s], by simp [push]⟩
    · rw [owner_push_other _ hs]
      exact ih

end ObjectPath

/-! ### Well-formed subtrees -/

/-- A descriptor lies below the characteristic of a path. -/
structure Descriptor.Belongs (parent : ObjectPath) (d : Descriptor) : Prop where
  parent_eq : d.characteristic = parent
  path_eq : ∃ n, d.path = parent.push (Segment.descriptor.numbered n)

/-- A characteristic lies below the service of a path, and its descriptors below it. -/
structure Characteristic.Belongs (parent : ObjectPath) (c : Characteristic) : Prop where
  parent_eq : c.service = parent
  path_eq : ∃ n, c.path = parent.push (Segment.characteristic.numbered n)
  descriptors : ∀ d ∈ c.descriptors, d.Belongs c.path
  nodup : (c.descriptors.map (·.path)).Nodup

/-- A service lies below a root, and its characteristics below it. -/
structure Service.Rooted (root : ObjectPath) (s : Service) : Prop where
  path_eq : ∃ n, s.path = root.push (Segment.service.numbered n)
  characteristics : ∀ c ∈ s.characteristics, c.Belongs s.path
  nodup : (s.characteristics.map (·.path)).Nodup

/-! ### Services in the making -/

mutual

/-- The services that come about below a root: an application creates them there, and they are
built up from there on.  Services are values, so what is made from one copy leaves the others as
they are, and whatever was made can be offered to any of them. -/
inductive Service.Made : ObjectPath → Service → Prop where
  | created {root : ObjectPath} {app app' : Application} {properties : ServiceProperties}
      {advertised : Bool} {s : Service} (path : app.path = root)
      (h : app.createService properties advertised = .ok (s, app')) : Service.Made root s
  | counted {root : ObjectPath} {s t : Service} {c : Characteristic}
      {properties : CharacteristicProperties} (made : Service.Made root s)
      (h : s.createCharacteristic properties = .ok (c, t)) : Service.Made root t
  | attached {root : ObjectPath} {s t : Service} {c : Characteristic} (made : Service.Made root s)
      (offered : Characteristic.Made c) (h : s.addCharacteristic c = .ok t) : Service.Made root t

/-- The characteristics that come about. -/
inductive Characteristic.Made : Characteristic → Prop where
  | created {root : ObjectPath} {s t : Service} {c : Characteristic}
      {properties : CharacteristicProperties} (made : Service.Made root s)
      (h : s.createCharacteristic properties = .ok (c, t)) : Characteristic.Made c
  | counted {c e : Characteristic} {d : Descriptor} {properties : DescriptorProperties}
      (made : Characteristic.Made c) (h : c.createDescriptor properties = .ok (d, e)) :
      Characteristic.Made e
  | attached {c e : Characteristic} {d : Descriptor} (made : Characteristic.Made c)
      (offered : Descriptor.Made d) (h : c.addDescriptor d = .ok e) : Characteristic.Made e

/-- The descriptors that come about. -/
inductive Descriptor.Made : Descriptor → Prop where
  | created {c e : Characteristic} {d : Descriptor} {properties : DescriptorProperties}
      (made : Characteristic.Made c) (h : c.createDescriptor properties = .ok (d, e)) :
      Descriptor.Made d

end

theorem Application.createService_eq {app app' : Application} {properties : ServiceProperties}
    {advertised : Bool} {s : Service}
    (h : app.createService properties advertised = .ok (s, app')) :
    s = .new (app.path.push (Segment.service.numbered (app.created + 1))) properties advertised ∧
      app' = { app with created := app.created + 1 } := by
  have hc := ObjectPath.child?_numbered app.path Segment.service (app.created + 1)
  have hl : Segment.service.text = serviceLabel := rfl
  rw [hl] at hc
  rw [createService, hc] at h
  cases h
  exact ⟨rfl, rfl⟩

theorem Service.createCharacteristic_eq {s t : Service} {properties : CharacteristicProperties}
    {c : Characteristic} (h : s.createCharacteristic properties = .ok (c, t)) :
    c = ⟨s.path.push (Segment.characteristic.numbered (s.created + 1)), s.path, properties, 0, []⟩ ∧
      t = { s with created := s.created + 1 } := by
  have hc := ObjectPath.child?_numbered s.path Segment.characteristic (s.created + 1)
  have hl : Segment.characteristic.text = characteristicLabel := rfl
  rw [hl] at hc
  rw [createCharacteristic, hc] at h
  cases h
  exact ⟨rfl, rfl⟩

theorem Characteristic.createDescriptor_eq {c e : Characteristic}
    {properties : DescriptorProperties} {d : Descriptor}
    (h : c.createDescriptor properties = .ok (d, e)) :
    d = ⟨c.path.push (Segment.descriptor.numbered (c.created + 1)), c.path, properties⟩ ∧
      e = { c with created := c.created + 1 } := by
  have hc := ObjectPath.child?_numbered c.path Segment.descriptor (c.created + 1)
  have hl : Segment.descriptor.text = descriptorLabel := rfl
  rw [hl] at hc
  rw [createDescriptor, hc] at h
  cases h
  exact ⟨rfl, rfl⟩

/-! ### What is made is well-formed -/

theorem Characteristic.Belongs.addDescriptor {parent : ObjectPath} {c e : Characteristic}
    {d : Descriptor} (hc : c.Belongs parent) (hd : d.Belongs d.characteristic)
    (h : c.addDescriptor d = .ok e) : e.Belongs parent := by
  unfold Characteristic.addDescriptor at h
  split_ifs at h with hp hn
  cases h
  rw [ne_eq, not_not] at hp
  simp only [List.any_eq_true, decide_eq_true_eq, not_exists, not_and] at hn
  refine ⟨hc.parent_eq, hc.path_eq, fun f hf => ?_, ?_⟩
  · rcases List.mem_append.1 hf with hf | hf
    · exact hc.descriptors f hf
    · rw [List.mem_singleton.1 hf]
      exact hp ▸ hd
  · rw [List.map_append, List.nodup_append]
    refine ⟨hc.nodup, List.nodup_singleton _, fun p hp q hq => ?_⟩
    obtain ⟨f, hf, rfl⟩ := List.mem_map.1 hp
    rw [List.map_singleton, List.mem_singleton] at hq
    exact hq ▸ hn f hf

theorem Service.Rooted.addCharacteristic {root : ObjectPath} {s t : Service} {c : Characteristic}
    (hs : s.Rooted root) (hc : c.Belongs c.service) (h : s.addCharacteristic c = .ok t) :
    t.Rooted root := by
  unfold Service.addCharacteristic Service.characteristic? at h
  split_ifs at h with hp hn
  cases h
  rw [ne_eq, not_not] at hp
  simp only [List.find?_isSome, decide_eq_true_eq, not_exists, not_and] at hn
  refine ⟨hs.path_eq, fun f hf => ?_, ?_⟩
  · rcases List.mem_append.1 hf with hf | hf
    · exact hs.characteristics f hf
    · rw [List.mem_singleton.1 hf]
      exact hp ▸ hc
  · rw [List.map_append, List.nodup_append]
    refine ⟨hs.nodup, List.nodup_singleton _, fun p hp q hq => ?_⟩
    obtain ⟨f, hf, rfl⟩ := List.mem_map.1 hp
    rw [List.map_singleton, List.mem_singleton] at hq
    exact hq ▸ hn f hf

mutual

/-- **Every service that is made is well-formed**, below the root it was created under. -/
theorem Service.Made.rooted {root : ObjectPath} {s : Service} : s.Made root → s.Rooted root
  | .created path h => by
    subst path
    obtain ⟨rfl, -⟩ := Application.createService_eq h
    exact ⟨⟨_, rfl⟩, fun _ hc => absurd hc List.not_mem_nil, List.nodup_nil⟩
  | .counted made h => by
    obtain ⟨-, rfl⟩ := Service.createCharacteristic_eq h
    exact ⟨made.rooted.path_eq, made.rooted.characteristics, made.rooted.nodup⟩
  | .attached made offered h => made.rooted.addCharacteristic offered.belongs h

theorem Characteristic.Made.belongs {c : Characteristic} : c.Made → c.Belongs c.service
  | .created made h => by
    obtain ⟨rfl, -⟩ := Service.createCharacteristic_eq h
    exact ⟨rfl, ⟨_, rfl⟩, fun _ hd => absurd hd List.not_mem_nil, List.nodup_nil⟩
  | .counted made h => by
    obtain ⟨-, rfl⟩ := Characteristic.createDescriptor_eq h
    exact ⟨rfl, made.belongs.path_eq, made.belongs.descriptors, made.belongs.nodup⟩
  | .attached made offered h => by
    have he : _ := made.belongs.addDescriptor offered.belongs h
    exact ⟨rfl, he.parent_eq ▸ he.path_eq, he.descriptors, he.nodup⟩

theorem Descriptor.Made.belongs {d : Descriptor} : d.Made → d.Belongs d.characteristic
  | .created made h => by
    obtain ⟨rfl, -⟩ := Characteristic.createDescriptor_eq h
    exact ⟨rfl, ⟨_, rfl⟩⟩

end

/-! ### The nodes of a well-formed service -/

namespace Node

/-- The path of the node above, as a node names it in its properties. -/
def parent? : Node → Option ObjectPath
  | .service _ => none
  | .characteristic _ c => some c.service
  | .descriptor _ _ d => some d.characteristic

/-- Every node comes after the node that it names as its parent. -/
def ParentsFirst (nodes : List Node) : Prop :=
  ∀ before n after, nodes = before ++ n :: after → ∀ p ∈ n.parent?, p ∈ before.map path

end Node

theorem Service.mem_nodes {s : Service} {n : Node} :
    n ∈ s.nodes ↔ n = .service s ∨ ∃ c ∈ s.characteristics,
      n = .characteristic s c ∨ ∃ d ∈ c.descriptors, n = .descriptor s c d := by
  simp only [nodes, Characteristic.nodes, List.mem_cons, List.mem_flatMap, List.mem_map, eq_comm]

namespace Service
namespace Rooted

variable {root : ObjectPath} {s : Service}

theorem owner_path (h : s.Rooted root) : s.path.owner = s.path := by
  obtain ⟨k, hk⟩ := h.path_eq
  rw [hk, ObjectPath.owner_push_service _ (Segment.kind?_service k)]

/-- **The path of a node tells its service.** -/
theorem owner_eq (h : s.Rooted root) {n : Node} (hn : n ∈ s.nodes) : n.path.owner = s.path := by
  rcases mem_nodes.1 hn with rfl | ⟨c, hc, rfl | ⟨d, hd, rfl⟩⟩
  · exact h.owner_path
  · obtain ⟨k, hk⟩ := (h.characteristics c hc).path_eq
    rw [Node.path, hk, ObjectPath.owner_push_other _ (by simp), h.owner_path]
  · obtain ⟨k, hk⟩ := (h.characteristics c hc).path_eq
    obtain ⟨l, hl⟩ := ((h.characteristics c hc).descriptors d hd).path_eq
    rw [Node.path, hl, ObjectPath.owner_push_other _ (by simp), hk,
      ObjectPath.owner_push_other _ (by simp), h.owner_path]

/-- The path of a node tells its kind. -/
theorem kind?_eq (h : s.Rooted root) {n : Node} (hn : n ∈ s.nodes) :
    n.path.kind? = some n.kind := by
  rcases mem_nodes.1 hn with rfl | ⟨c, hc, rfl | ⟨d, hd, rfl⟩⟩
  · obtain ⟨k, hk⟩ := h.path_eq
    simp [Node.path, Node.kind, hk]
  · obtain ⟨k, hk⟩ := (h.characteristics c hc).path_eq
    simp [Node.path, Node.kind, hk]
  · obtain ⟨k, hk⟩ := ((h.characteristics c hc).descriptors d hd).path_eq
    simp [Node.path, Node.kind, hk]

theorem isWithin (h : s.Rooted root) {n : Node} (hn : n ∈ s.nodes) : n.path.IsWithin s.path :=
  h.owner_eq hn ▸ n.path.isWithin_owner

/-- The nodes of a service lie below the root that the service was created under. -/
theorem isBelow (h : s.Rooted root) {n : Node} (hn : n ∈ s.nodes) : n.path.IsBelow root := by
  obtain ⟨k, hk⟩ := h.path_eq
  obtain ⟨rest, hrest⟩ := h.isWithin hn
  rw [hk] at hrest
  refine ⟨⟨Segment.service.numbered k :: rest, by simp [← hrest, ObjectPath.push]⟩, ?_⟩
  intro heq
  have hlength := congrArg List.length hrest
  rw [heq] at hlength
  simp only [ObjectPath.push, List.length_append, List.length_singleton] at hlength
  omega

theorem kind_eq_of_path (h : s.Rooted root) {n m : Node} (hn : n ∈ s.nodes) (hm : m ∈ s.nodes)
    (hpath : n.path = m.path) : n.kind = m.kind := by
  have hkind := h.kind?_eq hn
  rw [hpath, h.kind?_eq hm] at hkind
  exact Option.some.inj hkind.symm

/-- **The nodes of a service have different paths.** -/
theorem nodup_paths (h : s.Rooted root) : (s.nodes.map Node.path).Nodup := by
  have hmem : ∀ c ∈ s.characteristics, ∀ n ∈ c.nodes s, n ∈ s.nodes := fun c hc n hn =>
    List.mem_cons_of_mem _ (List.mem_flatMap.2 ⟨c, hc, hn⟩)
  rw [Service.nodes, List.map_cons, List.nodup_cons, List.map_flatMap, List.nodup_flatMap]
  refine ⟨fun hpath => ?_, fun c hc => ?_, ?_⟩
  · -- the service against the nodes below it, by kind
    obtain ⟨c, hc, hpath⟩ := List.mem_flatMap.1 hpath
    obtain ⟨n, hn, hp⟩ := List.mem_map.1 hpath
    have hkinds := h.kind_eq_of_path (hmem c hc n hn) (m := .service s) List.mem_cons_self hp
    rcases List.mem_cons.1 hn with rfl | hn
    · cases hkinds
    · obtain ⟨d, -, rfl⟩ := List.mem_map.1 hn
      cases hkinds
  · -- a characteristic against its descriptors, by kind
    rw [Characteristic.nodes, List.map_cons, List.map_map, List.nodup_cons]
    refine ⟨fun hpath => ?_, (h.characteristics c hc).nodup⟩
    obtain ⟨d, hd, hp⟩ := List.mem_map.1 hpath
    have hdescriptor : Node.descriptor s c d ∈ c.nodes s :=
      List.mem_cons_of_mem _ (List.mem_map_of_mem hd)
    have hkinds := h.kind_eq_of_path (hmem c hc _ hdescriptor)
      (hmem c hc (.characteristic s c) List.mem_cons_self) hp
    cases hkinds
  · -- the nodes of two characteristics, by the path of the characteristic
    refine (List.pairwise_map.1 h.nodup).imp_of_mem fun {c e} hc he hne => ?_
    intro p hp hq
    obtain ⟨n, hn, rfl⟩ := List.mem_map.1 hp
    obtain ⟨m, hm, hnm⟩ := List.mem_map.1 hq
    have hkinds : n.kind = m.kind :=
      h.kind_eq_of_path (hmem c hc n hn) (hmem e he m hm) hnm.symm
    rcases List.mem_cons.1 hn with rfl | hn <;> rcases List.mem_cons.1 hm with rfl | hm
    · exact hne hnm.symm
    · obtain ⟨d, -, rfl⟩ := List.mem_map.1 hm
      cases hkinds
    · obtain ⟨d, -, rfl⟩ := List.mem_map.1 hn
      cases hkinds
    · obtain ⟨d, hd, rfl⟩ := List.mem_map.1 hn
      obtain ⟨d', hd', rfl⟩ := List.mem_map.1 hm
      obtain ⟨k, hk⟩ := ((h.characteristics c hc).descriptors d hd).path_eq
      obtain ⟨l, hl⟩ := ((h.characteristics e he).descriptors d' hd').path_eq
      simp only [Node.path, hk, hl] at hnm
      exact hne (ObjectPath.push_injective hnm).1.symm

theorem nodup_paths_of_append (h : s.Rooted root) {before after : List Node}
    (hsplit : s.nodes = before ++ after) : (before.map Node.path).Nodup := by
  have hnodup := h.nodup_paths
  rw [hsplit, List.map_append] at hnodup
  exact hnodup.of_append_left

/-- No path is both among those of some first nodes and among those of the others. -/
theorem notMem_paths_of_append (h : s.Rooted root) {before after : List Node}
    (hsplit : s.nodes = before ++ after) {p : ObjectPath} (hp : p ∈ after.map Node.path) :
    p ∉ before.map Node.path := by
  have hnodup := h.nodup_paths
  rw [hsplit, List.map_append, List.nodup_append] at hnodup
  exact fun hbefore => hnodup.2.2 p hbefore p hp rfl

/-- Only the first node lies at the path of the service. -/
theorem path_ne (h : s.Rooted root) {before after : List Node} {n : Node}
    (hsplit : s.nodes = before ++ n :: after) (hne : before ≠ []) : n.path ≠ s.path := by
  obtain ⟨first, more, rfl⟩ := List.exists_cons_of_ne_nil hne
  have hout := h.notMem_paths_of_append hsplit (List.mem_map_of_mem List.mem_cons_self)
  obtain ⟨rfl, -⟩ := List.cons.inj hsplit
  exact fun hpath => hout (hpath ▸ List.mem_cons_self)

/-- In the list of nodes, the characteristic of a descriptor stands before the descriptor. -/
theorem characteristic_mem_before {s : Service} {c : Characteristic} {d : Descriptor}
    {cs : List Characteristic} {before after : List Node}
    (h : cs.flatMap (Characteristic.nodes s) = before ++ .descriptor s c d :: after) :
    .characteristic s c ∈ before := by
  induction cs generalizing before with
  | nil => simp at h
  | cons e es ih =>
    rw [List.flatMap_cons] at h
    rcases List.append_eq_append_iff.1 h with ⟨more, rfl, hrest⟩ | ⟨tail, hblock, hrest⟩
    · exact List.mem_append_right _ (ih hrest)
    · obtain _ | ⟨x, tail⟩ := tail
      · exact absurd (@ih [] hrest.symm) List.not_mem_nil
      · obtain ⟨rfl, -⟩ := List.cons.inj hrest
        obtain _ | ⟨first, before⟩ := before
        · cases (List.cons.inj hblock).1
        · obtain ⟨rfl, hdescs⟩ := List.cons.inj hblock
          have hmem : Node.descriptor s c d ∈ e.descriptors.map (Node.descriptor s e) := by
            rw [hdescs]
            exact List.mem_append_right _ List.mem_cons_self
          obtain ⟨d', -, hd⟩ := List.mem_map.1 hmem
          cases hd
          exact List.mem_cons_self

/-- **A node comes after its parent.** -/
theorem parentsFirst (h : s.Rooted root) : Node.ParentsFirst s.nodes := by
  intro before n after hsplit p hp
  obtain _ | ⟨first, before⟩ := before
  · -- the first node is the service, which names no parent
    obtain rfl : Node.service s = n := (List.cons.inj hsplit).1
    simp [Node.parent?] at hp
  · obtain ⟨rfl, hrest⟩ := List.cons.inj hsplit
    have hn : n ∈ s.nodes := by rw [hsplit]; simp
    rcases mem_nodes.1 hn with rfl | ⟨c, hc, rfl | ⟨d, hd, rfl⟩⟩
    · simp [Node.parent?] at hp
    · rw [Node.parent?, Option.mem_some_iff] at hp
      rw [← hp, (h.characteristics c hc).parent_eq]
      exact List.mem_map_of_mem (f := Node.path) List.mem_cons_self
    · rw [Node.parent?, Option.mem_some_iff] at hp
      rw [← hp, ((h.characteristics c hc).descriptors d hd).parent_eq, List.map_cons]
      refine List.mem_cons_of_mem _ (List.mem_map.2 ⟨.characteristic s c, ?_, rfl⟩)
      exact characteristic_mem_before hrest

/-- A node that lies below another one lies below the service, or is right below its parent. -/
theorem parent?_of_isBelow (h : s.Rooted root) {m n : Node} (hm : m ∈ s.nodes) (hn : n ∈ s.nodes)
    (hbelow : m.path.IsBelow n.path) : n.path = s.path ∨ m.parent? = some n.path := by
  rcases mem_nodes.1 hm with rfl | ⟨c, hc, rfl | ⟨d, hd, rfl⟩⟩
  · exact Or.inl ((h.isWithin hn).antisymm hbelow.1)
  · obtain ⟨k, hk⟩ := (h.characteristics c hc).path_eq
    rw [Node.path, hk] at hbelow
    exact Or.inl ((h.isWithin hn).antisymm hbelow.of_push)
  · obtain ⟨k, hk⟩ := (h.characteristics c hc).path_eq
    have hd := (h.characteristics c hc).descriptors d hd
    obtain ⟨l, hl⟩ := hd.path_eq
    rw [Node.path, hl] at hbelow
    by_cases hne : c.path = n.path
    · exact Or.inr (by rw [Node.parent?, hd.parent_eq, hne])
    · have hupper : c.path.IsBelow n.path := ⟨hbelow.of_push, hne⟩
      rw [hk] at hupper
      exact Or.inl ((h.isWithin hn).antisymm hupper.of_push)

/-- **No node comes before one that it lies below.** -/
theorem pairwise_nodes (h : s.Rooted root) :
    s.nodes.Pairwise fun m n => ¬ m.path.IsBelow n.path := by
  rw [List.pairwise_iff_forall_sublist]
  intro m n hsublist hbelow
  obtain ⟨first, second, hnodes, hm, hn⟩ := List.cons_sublist_iff.1 hsublist
  obtain ⟨before, between, rfl⟩ := List.append_of_mem hm
  have hn : n ∈ second := List.singleton_sublist.1 hn
  have hsplit : s.nodes = before ++ m :: (between ++ second) := by
    rw [hnodes, List.append_assoc, List.cons_append]
  have hmem : n ∈ s.nodes := hnodes ▸ List.mem_append_right _ hn
  -- the other node would be the first one, or the parent, and come twice
  rcases h.parent?_of_isBelow (hsplit ▸ by simp) hmem hbelow with hservice | hparent
  · obtain ⟨left, right, rfl⟩ := List.append_of_mem hn
    have hwhole : s.nodes = (before ++ m :: (between ++ left)) ++ n :: right := by
      rw [hsplit]
      simp
    exact h.path_ne hwhole (by simp) hservice
  · have hbefore := h.parentsFirst before m _ hsplit n.path hparent
    refine h.notMem_paths_of_append hsplit ?_ hbefore
    exact List.mem_map_of_mem (List.mem_cons_of_mem _ (List.mem_append_right _ hn))

end Rooted
end Service

/-! ### Showing another value -/

/-- The properties of a characteristic with another value. -/
def InterfaceMap.withValue (value : List UInt8) (interfaces : InterfaceMap) : InterfaceMap :=
  interfaces.modify Interface.characteristic fun properties =>
    properties.insert "Value" (.bytes value)

theorem Characteristic.interfaces_withValue (c : Characteristic) (value : List UInt8) :
    (c.withValue value).table.interfaces = c.table.interfaces.withValue value := rfl

/-- What is shown of a node. -/
structure Node.Face where
  /-- Its path. -/
  path : ObjectPath
  /-- Its kind. -/
  kind : ObjectKind
  /-- The path of the node above. -/
  parent? : Option ObjectPath
  /-- Its properties. -/
  interfaces : InterfaceMap

/-- What is shown of a node. -/
def Node.face (n : Node) : Node.Face := ⟨n.path, n.kind, n.parent?, n.interfaces⟩

/-- What is shown of a node when the characteristic of a path takes another value. -/
def Node.Face.withValue (path : ObjectPath) (value : List UInt8) (f : Node.Face) : Node.Face :=
  if f.path = path then { f with interfaces := f.interfaces.withValue value } else f

@[simp] theorem Node.Face.path_withValue (path : ObjectPath) (value : List UInt8)
    (f : Node.Face) : (f.withValue path value).path = f.path := by
  unfold withValue
  split <;> rfl

@[simp] theorem Node.Face.kind_withValue (path : ObjectPath) (value : List UInt8)
    (f : Node.Face) : (f.withValue path value).kind = f.kind := by
  unfold withValue
  split <;> rfl

theorem Node.Face.interfaces_withValue (path : ObjectPath) (value : List UInt8)
    (f : Node.Face) : (f.withValue path value).interfaces =
      if f.path = path then f.interfaces.withValue value else f.interfaces := by
  unfold withValue
  split <;> rfl

/-- In a list of nodes of different paths, another value changes one face. -/
theorem Node.Face.map_withValue {before after : List Node.Face} {f : Node.Face}
    {value : List UInt8} (h : ((before ++ f :: after).map Node.Face.path).Nodup) :
    (before ++ f :: after).map (Node.Face.withValue f.path value) =
      before ++ { f with interfaces := f.interfaces.withValue value } :: after := by
  have hother : ∀ g ∈ before ++ after, g.withValue f.path value = g := by
    intro g hg
    refine if_neg fun hp => ?_
    rw [List.map_append, List.map_cons, List.nodup_middle, List.nodup_cons, ← List.map_append] at h
    exact h.1 (hp ▸ List.mem_map_of_mem hg)
  rw [List.map_append, List.map_cons, Node.Face.withValue, if_pos rfl,
    List.map_congr_left fun g hg => hother g (List.mem_append_left _ hg),
    List.map_congr_left fun g hg => hother g (List.mem_append_right _ hg)]
  simp

/-- What is shown of the descriptors of a characteristic. -/
def Characteristic.faces (c : Characteristic) : List Node.Face :=
  c.descriptors.map fun d => ⟨d.path, .descriptor, some d.characteristic, d.table.interfaces⟩

/-- What is shown of a service and the nodes below it. -/
theorem Service.map_face_nodes (s : Service) :
    s.nodes.map Node.face =
      ⟨s.path, .service, none, s.table.interfaces⟩ :: s.characteristics.flatMap fun c =>
        ⟨c.path, .characteristic, some c.service, c.table.interfaces⟩ :: c.faces := by
  simp [nodes, Characteristic.nodes, Characteristic.faces, List.map_flatMap, Node.face, Node.path,
    Node.kind, Node.parent?, Node.interfaces, Function.comp_def]

namespace Service

theorem setValueIn?_eq_some {path : ObjectPath} {value : List UInt8}
    {cs es : List Characteristic} (h : setValueIn? path value cs = some es) :
    ∃ before c after, cs = before ++ c :: after ∧ c.path = path ∧
      es = before ++ c.withValue value :: after := by
  induction cs generalizing es with
  | nil => cases h
  | cons c cs ih =>
    rw [setValueIn?] at h
    split_ifs at h with hc
    · cases h
      exact ⟨[], c, cs, rfl, hc, rfl⟩
    · obtain ⟨fs, hfs, rfl⟩ := Option.map_eq_some_iff.1 h
      obtain ⟨before, e, after, rfl, he, rfl⟩ := ih hfs
      exact ⟨c :: before, e, after, rfl, he, rfl⟩

theorem setValueIn?_eq_none {path : ObjectPath} {value : List UInt8} {cs : List Characteristic} :
    setValueIn? path value cs = none ↔ ∀ c ∈ cs, c.path ≠ path := by
  induction cs with
  | nil => simp [setValueIn?]
  | cons c cs ih => by_cases hc : c.path = path <;> simp [setValueIn?, hc, ih]

variable {root path : ObjectPath} {value : List UInt8} {s t : Service}

theorem setValue?_path (h : s.setValue? path value = some t) : t.path = s.path := by
  obtain ⟨es, -, rfl⟩ := Option.map_eq_some_iff.1 h
  rfl

theorem characteristic_of_setValue? (h : s.setValue? path value = some t) :
    ∃ c ∈ s.characteristics, c.path = path := by
  obtain ⟨es, hes, rfl⟩ := Option.map_eq_some_iff.1 h
  obtain ⟨before, c, after, hcs, hc, -⟩ := setValueIn?_eq_some hes
  exact ⟨c, by simp [hcs], hc⟩

theorem Rooted.setValue (hs : s.Rooted root) (h : s.setValue? path value = some t) :
    t.Rooted root := by
  obtain ⟨es, hes, rfl⟩ := Option.map_eq_some_iff.1 h
  obtain ⟨before, c, after, hcs, -, rfl⟩ := setValueIn?_eq_some hes
  have hc : c ∈ s.characteristics := by rw [hcs]; simp
  refine ⟨hs.path_eq, fun e he => ?_, ?_⟩
  · rcases List.mem_append.1 he with he | he
    · exact hs.characteristics e (hcs ▸ List.mem_append_left _ he)
    · rcases List.mem_cons.1 he with rfl | he
      · have := hs.characteristics c hc
        exact ⟨this.parent_eq, this.path_eq, this.descriptors, this.nodup⟩
      · exact hs.characteristics e (hcs ▸ List.mem_append_right _ (List.mem_cons_of_mem _ he))
  · have := hs.nodup
    rw [hcs] at this
    simpa [Characteristic.withValue] using this

/-- **Another value changes one node**: the characteristic of the path. -/
theorem Rooted.faces_setValue (hs : s.Rooted root) (h : s.setValue? path value = some t) :
    t.nodes.map Node.face = (s.nodes.map Node.face).map (Node.Face.withValue path value) := by
  obtain ⟨es, hes, rfl⟩ := Option.map_eq_some_iff.1 h
  obtain ⟨before, c, after, hcs, rfl, rfl⟩ := setValueIn?_eq_some hes
  have hnodup : ((s.nodes.map Node.face).map Node.Face.path).Nodup := by
    rw [List.map_map]
    exact hs.nodup_paths
  have hfaces := s.map_face_nodes
  rw [hcs, List.flatMap_append, List.flatMap_cons, List.cons_append, ← List.cons_append] at hfaces
  rw [hfaces] at hnodup ⊢
  rw [Node.Face.map_withValue hnodup, map_face_nodes, List.flatMap_append, List.flatMap_cons]
  rfl

end Service
end GattServer
