/-
# The objects of a connection

The objects that a connection exports sit on the nodes of a tree, at most one object of each kind
on a node.  Exporting an object makes the nodes on the way to it.  A node goes away, and everything
below it goes with it, when an object is withdrawn from it and none is left there that is not an
object manager; the nodes above it stay, whatever is on them.  The root is always there.
-/

import GattServer.Object

namespace GattServer

/-- The objects on a node, by kind. -/
abbrev Objects := FinMap ObjectKind Object

/-- The nodes of a connection and the objects on them. -/
structure ObjectTree where
  /-- The objects on each node. -/
  nodes : FinMap ObjectPath Objects
  deriving DecidableEq

namespace ObjectTree

/-- The tree that is nothing but a root. -/
def bare : ObjectTree := ⟨(∅ : FinMap ObjectPath Objects).insert .root ∅⟩

instance : Inhabited ObjectTree := ⟨bare⟩

/-- The objects on a node, if there is such a node. -/
def at? (t : ObjectTree) (path : ObjectPath) : Option Objects := t.nodes.find? path

/-- The object of a kind at a path. -/
def object? (t : ObjectTree) (path : ObjectPath) (kind : ObjectKind) : Option Object :=
  (t.at? path).bind fun objects => objects.find? kind

/-- Whether an object manager is exported at a path. -/
def manages (t : ObjectTree) (path : ObjectPath) : Bool := (t.object? path .objectManager).isSome

/-- The closest path above `path` that an object manager is exported at. -/
def manager? (t : ObjectTree) (path : ObjectPath) : Option ObjectPath :=
  path.ancestors.reverse.find? t.manages

/-- The nodes below a path, in the order of their texts. -/
def below (t : ObjectTree) (path : ObjectPath) : List (ObjectPath × Objects) :=
  (t.nodes.entries.filter fun e => e.1.IsBelow path).mergeSort fun e f => e.1.le f.1

/-- The tree with a node at a path. -/
def addNode (t : ObjectTree) (path : ObjectPath) : ObjectTree :=
  if t.nodes.contains path then t else ⟨t.nodes.insert path ∅⟩

/-- The tree with nodes at a path and above it. -/
def grow (t : ObjectTree) (path : ObjectPath) : ObjectTree :=
  (path.ancestors ++ [path]).foldl addNode t

/-- The tree with an object at a path; it takes the place of another one of its kind. -/
def put (t : ObjectTree) (path : ObjectPath) (o : Object) : ObjectTree :=
  ⟨(t.grow path).nodes.modify path fun objects => objects.insert o.kind o⟩

/-- The tree with the object of a kind at a path, if there is one, replaced by its image. -/
def modify (t : ObjectTree) (path : ObjectPath) (kind : ObjectKind) (f : Object → Object) :
    ObjectTree :=
  ⟨t.nodes.modify path fun objects => objects.modify kind f⟩

/-- Whether one of some objects is not an object manager. -/
def occupied (objects : Objects) : Bool := objects.keys.any fun kind => kind ≠ .objectManager

/-- Whether a node stays that has these objects left on it. -/
def stays (path : ObjectPath) (left : Objects) : Bool := path = .root || occupied left

/-- The tree without a node and those below it. -/
def cut (t : ObjectTree) (path : ObjectPath) : ObjectTree :=
  ⟨t.nodes.filterKeys fun p => !decide (p.IsWithin path)⟩

/-- The tree without the object of a kind at a path, and without the node if it does not stay. -/
def remove (t : ObjectTree) (path : ObjectPath) (kind : ObjectKind) : ObjectTree :=
  match t.at? path with
  | none => t
  | some objects =>
    if stays path (objects.erase kind) then ⟨t.nodes.insert path (objects.erase kind)⟩
    else t.cut path

/-! ### What each operation does to the objects -/

variable (t : ObjectTree) {path q : ObjectPath} {kind k : ObjectKind}

theorem object?_addNode (p : ObjectPath) : (t.addNode p).object? q k = t.object? q k := by
  unfold addNode
  split
  · rfl
  · next h =>
    simp only [object?, at?]
    by_cases hq : q = p
    · subst hq
      have hn : t.nodes.find? q = none := by simpa [FinMap.contains] using h
      rw [FinMap.find?_insert_self, hn]
      rfl
    · rw [FinMap.find?_insert_of_ne _ _ hq]

/-- Nodes that are made on the way hold no objects. -/
theorem object?_grow (p : ObjectPath) : (t.grow p).object? q k = t.object? q k := by
  unfold grow
  induction p.ancestors ++ [p] generalizing t with
  | nil => rfl
  | cons a as ih => rw [List.foldl_cons, ih, object?_addNode]

theorem at?_addNode_self (p : ObjectPath) : ((t.addNode p).at? p).isSome := by
  unfold addNode
  split
  · next h => exact h
  · simp [at?, FinMap.find?_insert_self]

theorem at?_grow_self (p : ObjectPath) : ((t.grow p).at? p).isSome := by
  rw [grow, List.foldl_append]
  exact at?_addNode_self _ p

/-- **An object that is put is there.** -/
theorem object?_put_self (path : ObjectPath) (o : Object) :
    (t.put path o).object? path o.kind = some o := by
  obtain ⟨objects, h⟩ := Option.isSome_iff_exists.1 (at?_grow_self t path)
  simp only [at?] at h
  simp [object?, at?, put, FinMap.find?_modify_self, h, FinMap.find?_insert_self]

/-- **Putting an object leaves all others.** -/
theorem object?_put_of_ne {o : Object} (h : q ≠ path ∨ k ≠ o.kind) :
    (t.put path o).object? q k = t.object? q k := by
  rw [← object?_grow t path]
  simp only [object?, at?, put]
  by_cases hq : q = path
  · subst hq
    rw [FinMap.find?_modify_self]
    cases (t.grow q).nodes.find? q with
    | none => rfl
    | some objects => simp [FinMap.find?_insert_of_ne _ _ (h.resolve_left fun hn => hn rfl)]
  · rw [FinMap.find?_modify_of_ne _ _ hq]

theorem object?_modify_self (path : ObjectPath) (kind : ObjectKind) (f : Object → Object) :
    (t.modify path kind f).object? path kind = (t.object? path kind).map f := by
  simp only [object?, at?, modify, FinMap.find?_modify_self]
  cases t.nodes.find? path with
  | none => rfl
  | some objects => simp [FinMap.find?_modify_self]

theorem object?_modify_of_ne (f : Object → Object) (h : q ≠ path ∨ k ≠ kind) :
    (t.modify path kind f).object? q k = t.object? q k := by
  simp only [object?, at?, modify]
  by_cases hq : q = path
  · subst hq
    rw [FinMap.find?_modify_self]
    cases t.nodes.find? q with
    | none => rfl
    | some objects => simp [FinMap.find?_modify_of_ne _ _ (h.resolve_left fun hn => hn rfl)]
  · rw [FinMap.find?_modify_of_ne _ _ hq]

/-- **A node takes everything below it along.** -/
theorem object?_cut (path : ObjectPath) :
    (t.cut path).object? q k = if q.IsWithin path then none else t.object? q k := by
  simp only [object?, at?, cut, FinMap.find?_filterKeys]
  by_cases h : q.IsWithin path <;> simp [h]

end ObjectTree
end GattServer
