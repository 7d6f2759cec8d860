/-
# What a withdrawal touches

A withdrawal should touch only what it names: the object of a kind at a path goes, every other
object answers as before, and if there is no such object, a warning says so and nothing else happens
(`Connection.Precise`).  On a connection this is so exactly when the object is there and nothing
else is, neither at its path nor below (`Connection.precise_iff`).

It goes wrong in three ways (`Connection.not_precise`).  Where no such object is exported, the
withdrawal fails, without a warning.  Where another object stays at the path, the warning comes
although the object was there.  And where none but object managers are left at the path, they go
too, together with everything below, whichever application it belongs to.

An object answers the calls of its interface and those about its properties.  All that such a call
depends on is the object (`Connection.answersAlike_of_object?`), so it is enough to follow the
objects.
-/

import GattServer.Proofs.Inquiry

namespace GattServer

/-! ### Nodes after a removal -/

namespace ObjectTree

variable {t : ObjectTree} {path q : ObjectPath} {kind k : ObjectKind} {objects : Objects}

/-- Some object other than an object manager is left. -/
theorem occupied_iff : occupied objects = true ↔
    ∃ k, k ≠ .objectManager ∧ (objects.find? k).isSome := by
  simp only [occupied, List.any_eq_true, decide_eq_true_eq, FinMap.mem_keys_iff]
  exact exists_congr fun k => and_comm

theorem find?_erase (objects : Objects) :
    (objects.erase kind).find? k = if k = kind then none else objects.find? k := by
  split_ifs with hk
  · rw [hk, FinMap.find?_erase_self]
  · exact FinMap.find?_erase_of_ne _ hk

/-- **A node stays on which another kind of object is left**, and only the one object goes. -/
theorem object?_remove_of_occupied (hnode : t.at? path = some objects)
    (hleft : occupied (objects.erase kind) = true) :
    (t.remove path kind).object? q k = if (q, k) = (path, kind) then none else t.object? q k := by
  have hstays : stays path (objects.erase kind) = true := by
    rw [stays, hleft, Bool.or_true]
  rw [remove, hnode]
  dsimp only
  rw [if_pos hstays, object?, at?]
  by_cases hq : q = path
  · subst hq
    rw [FinMap.find?_insert_self, Option.bind_some, find?_erase, object?, hnode, Option.bind_some]
    simp only [Prod.mk.injEq, true_and]
  · rw [FinMap.find?_insert_of_ne _ _ hq, if_neg fun h => hq (Prod.mk.inj h).1, object?, at?]

/-- **A node goes on which at most an object manager is left**, and all below it goes too. -/
theorem object?_remove_of_vacant (hroot : path ≠ .root) (hnode : t.at? path = some objects)
    (hleft : occupied (objects.erase kind) = false) :
    (t.remove path kind).object? q k = if q.IsWithin path then none else t.object? q k := by
  have hgoes : stays path (objects.erase kind) = false := by
    rw [stays, hleft, Bool.or_false, decide_eq_false hroot]
  rw [remove, hnode]
  dsimp only
  rw [hgoes, if_neg Bool.false_ne_true, object?_cut]

end ObjectTree

/-! ### Calls to one object -/

namespace Objects

variable {objects others : Objects} {interface member : String} {arguments : List Value}

/-- A question about the properties of an interface is answered by what offers the interface. -/
theorem propertyMethod?_congr (hsubject : objects.subject interface = others.subject interface)
    (hargument : arguments.head? = some (.text interface)) :
    objects.propertyMethod? member arguments = others.propertyMethod? member arguments := by
  unfold propertyMethod?
  split
  case h_4 => rfl
  all_goals
    congr 1
    split
    · cases hargument
      rw [hsubject]
    · rfl

/-- Questions about the properties of an interface that nothing offers end in errors. -/
theorem propertyMethod?_of_error {e : MethodError} {answer : Except MethodError MethodResult}
    (hsubject : objects.subject interface = .error e)
    (hargument : arguments.head? = some (.text interface))
    (hanswer : objects.propertyMethod? member arguments = some answer) :
    ∃ e, answer = .error e := by
  unfold propertyMethod? at hanswer
  split at hanswer
  case h_4 => cases hanswer
  all_goals
    split at hanswer
    · cases hargument
      rw [hsubject] at hanswer
      exact ⟨_, (Option.some.inj hanswer).symm⟩
    · exact ⟨_, (Option.some.inj hanswer).symm⟩

end Objects

/-- A call of a method of the object of a kind at a path, or about the properties of the object. -/
def MethodCall.Addresses (c : MethodCall) (path : ObjectPath) (kind : ObjectKind) : Prop :=
  c.path = path ∧ (c.interface = kind.interface ∨
    c.interface = Interface.properties ∧ c.arguments.head? = some (.text kind.interface))

namespace Connection

variable {k k' : Connection} {path q : ObjectPath} {kind l : ObjectKind} {objects others : Objects}
  {daemon : Daemon} {o : Object} {c : MethodCall}

/-- The object of a kind at a path answers on one connection as on another one. -/
def AnswersAlike (path : ObjectPath) (kind : ObjectKind) (k k' : Connection) : Prop :=
  ∀ c : MethodCall, c.Addresses path kind →
    (k'.receive c).1 = (k.receive c).1 ∧ (k'.receive c).2.2 = (k.receive c).2.2

/-- No object of a kind answers at a path: all calls to it end in errors. -/
def Silent (path : ObjectPath) (kind : ObjectKind) (k : Connection) : Prop :=
  ∀ c : MethodCall, c.Addresses path kind → ∃ e, (k.receive c).1 = .reply (.error e)

theorem addresses_getAll (path : ObjectPath) (kind : ObjectKind) :
    (MethodCall.getAll path kind.interface).Addresses path kind :=
  ⟨rfl, Or.inr ⟨rfl, rfl⟩⟩

/-- **An object answers alike wherever it is exported at the same path**. -/
theorem answersAlike_of_object? (hobject : k.objects.object? path kind = some o)
    (hother : k'.objects.object? path kind = some o) : AnswersAlike path kind k k' := by
  obtain ⟨objects, hnode, hfind⟩ := exists_at? hobject
  obtain ⟨others, hnode', hfind'⟩ := exists_at? hother
  have hfacet : others.facet? kind.interface = objects.facet? kind.interface := by
    rw [facet?_interface, facet?_interface, hfind, hfind']
  rintro ⟨p, interface, member, arguments⟩ ⟨rfl, rfl | ⟨rfl, hargument⟩⟩
  · rw [receive, receive]
    dsimp only
    rw [hnode, hnode']
    dsimp only
    rw [hfacet, facet?_interface, hfind]
    dsimp only [Option.map_some]
    have hmethod : (Facet.object o).method? p others member arguments =
        (Facet.object o).method? p objects member arguments := by
      cases o <;> rfl
    rw [hmethod]
    cases (Facet.object o).subscription? member with
    | none => exact ⟨rfl, rfl⟩
    | some subscription =>
      dsimp only
      split_ifs
      · rw [subscribe, subscribe]
        split_ifs <;> exact ⟨rfl, rfl⟩
      · exact ⟨rfl, rfl⟩
  · have hsubject : others.subject kind.interface = objects.subject kind.interface := by
      rw [Objects.subject, hfacet, Objects.subject]
    have hmethod : others.propertyMethod? member arguments =
        objects.propertyMethod? member arguments :=
      Objects.propertyMethod?_congr hsubject hargument
    rw [receive, receive]
    dsimp only
    rw [hnode, hnode']
    refine ⟨?_, rfl⟩
    show (((others.propertyMethod? member arguments).map Response.reply).getD _) = _
    rw [hmethod]
    rfl

/-- **What is not there does not answer, and what is there does.** -/
theorem silent_iff : k.Silent path kind ↔ k.objects.object? path kind = none := by
  constructor
  · intro silent
    by_contra hthere
    obtain ⟨o, hobject⟩ := Option.ne_none_iff_exists'.1 hthere
    obtain ⟨e, he⟩ := silent _ (addresses_getAll path kind)
    rw [receive_getAll hobject] at he
    cases he
  rintro hgone ⟨p, interface, member, arguments⟩ ⟨hpath, haddressed⟩
  obtain rfl : p = path := hpath
  rw [receive]
  dsimp only
  cases hnode : k.objects.at? p with
  | none => exact ⟨_, rfl⟩
  | some objects =>
    rw [ObjectTree.object?, hnode] at hgone
    replace hgone : objects.find? kind = none := hgone
    dsimp only
    rcases haddressed with rfl | ⟨rfl, hargument⟩
    · rw [facet?_interface, hgone]
      exact ⟨_, rfl⟩
    · have hsubject : objects.subject kind.interface =
          .error (.unknownInterface kind.interface) := by
        rw [Objects.subject, check_interface]
        dsimp only
        rw [facet?_interface, hgone]
        rfl
      show ∃ e, (((objects.propertyMethod? member arguments).map Response.reply).getD _) = _
      cases hanswer : objects.propertyMethod? member arguments with
      | none => exact ⟨_, rfl⟩
      | some answer =>
        obtain ⟨e, rfl⟩ := Objects.propertyMethod?_of_error hsubject hargument hanswer
        exact ⟨e, rfl⟩

/-- An object that answers as before is still there. -/
theorem AnswersAlike.ne_none (alike : AnswersAlike path kind k k')
    (hthere : k.objects.object? path kind ≠ none) : k'.objects.object? path kind ≠ none := by
  intro hgone
  refine hthere (silent_iff.1 fun c hc => ?_)
  rw [← (alike c hc).1]
  exact silent_iff.2 hgone c hc

/-! ### Withdrawals -/

/-- **A withdrawal touches only what it names.**  It always succeeds.  An object that is exported
goes, without a warning, and all others answer as before.  Where there is no such object, a warning
says so and nothing changes. -/
structure Precise (path : ObjectPath) (kind : ObjectKind) (k : Connection) (r : Outcome) :
    Prop where
  answer : r.answer = .ok ()
  exported : k.objects.object? path kind ≠ none →
    r.warnings = [] ∧ r.connection.Silent path kind ∧
      ∀ q l, k.objects.object? q l ≠ none → (q, l) ≠ (path, kind) →
        AnswersAlike q l k r.connection
  missing : k.objects.object? path kind = none →
    r.warnings = [.stillServed kind.interface path] ∧ r.connection = k ∧ r.messages = []

/-- **Where there is no object of the kind, the withdrawal fails** and does nothing. -/
theorem withdrawObject_of_missing (h : k.objects.object? path kind = none) :
    k.withdrawObject path kind = ⟨.error .interfaceNotFound, k, [], []⟩ := by
  rw [withdrawObject]
  cases hnode : k.objects.at? path with
  | none => rfl
  | some objects =>
    rw [ObjectTree.object?, hnode] at h
    replace h : objects.find? kind = none := h
    dsimp only
    rw [FinMap.contains, h]
    rfl

/-- **Where there is one, it is removed**, and a warning depends on what is left on its node. -/
theorem withdrawObject_of_exported (hnode : k.objects.at? path = some objects)
    (hfind : objects.find? kind = some o) :
    (k.withdrawObject path kind).answer = .ok () ∧
      (k.withdrawObject path kind).connection.objects = k.objects.remove path kind ∧
      (k.withdrawObject path kind).warnings =
        if ObjectTree.occupied (objects.erase kind) then [.stillServed kind.interface path]
        else [] := by
  have hcontains : objects.contains kind = true := by
    rw [FinMap.contains, hfind]
    rfl
  rw [withdrawObject, hnode]
  dsimp only
  rw [if_pos hcontains]
  exact ⟨rfl, rfl, rfl⟩

/-- Besides the object of a kind, one that is not an object manager is exported at a path. -/
def Shared (path : ObjectPath) (kind : ObjectKind) (k : Connection) : Prop :=
  ∃ l, l ≠ .objectManager ∧ l ≠ kind ∧ k.objects.object? path l ≠ none

theorem shared_iff (hnode : k.objects.at? path = some objects) :
    k.Shared path kind ↔ ObjectTree.occupied (objects.erase kind) = true := by
  rw [ObjectTree.occupied_iff]
  refine exists_congr fun l => and_congr_right fun _ => ?_
  rw [ObjectTree.object?, hnode, Option.bind_some, ObjectTree.find?_erase]
  split_ifs with hl <;> simp [hl, Option.isSome_iff_ne_none]

/-- **A withdrawal from a shared path** takes the one object, and comes with a warning. -/
theorem withdrawObject_of_shared (hobject : k.objects.object? path kind = some o)
    (shared : k.Shared path kind) :
    (k.withdrawObject path kind).warnings = [.stillServed kind.interface path] ∧
      ∀ q l, (k.withdrawObject path kind).connection.objects.object? q l =
        if (q, l) = (path, kind) then none else k.objects.object? q l := by
  obtain ⟨objects, hnode, hfind⟩ := exists_at? hobject
  obtain ⟨-, hobjects, hwarnings⟩ := withdrawObject_of_exported hnode hfind
  have hleft := (shared_iff hnode).1 shared
  refine ⟨by rw [hwarnings, if_pos hleft], fun q l => ?_⟩
  rw [hobjects, ObjectTree.object?_remove_of_occupied hnode hleft]

/-- **A withdrawal from any other path** takes all that is exported there or below, and comes
without a warning. -/
theorem withdrawObject_of_not_shared (hroot : path ≠ .root)
    (hobject : k.objects.object? path kind = some o) (unshared : ¬ k.Shared path kind) :
    (k.withdrawObject path kind).warnings = [] ∧
      ∀ q l, (k.withdrawObject path kind).connection.objects.object? q l =
        if q.IsWithin path then none else k.objects.object? q l := by
  obtain ⟨objects, hnode, hfind⟩ := exists_at? hobject
  obtain ⟨-, hobjects, hwarnings⟩ := withdrawObject_of_exported hnode hfind
  have hleft : ObjectTree.occupied (objects.erase kind) = false :=
    Bool.eq_false_iff.2 fun h => unshared ((shared_iff hnode).2 h)
  refine ⟨by rw [hwarnings, hleft, if_neg Bool.false_ne_true], fun q l => ?_⟩
  rw [hobjects, ObjectTree.object?_remove_of_vacant hroot hnode hleft]

/-- **A withdrawal touches only what it names exactly when that is there and alone**: no other
object is exported at the path or below.

The root is set aside: what the object server itself does when the last object is withdrawn there is
not modelled, and the root just stays here. -/
theorem precise_iff (daemon : Daemon) (k : Connection) (kind : ObjectKind)
    (hroot : path ≠ .root) :
    Precise path kind k (k.perform daemon (.withdrawObject path kind)) ↔
      k.objects.object? path kind ≠ none ∧
        ∀ q l, q.IsWithin path → k.objects.object? q l ≠ none → (q, l) = (path, kind) := by
  show Precise path kind k (k.withdrawObject path kind) ↔ _
  by_cases hthere : k.objects.object? path kind = none
  · refine iff_of_false (fun precise => ?_) fun h => h.1 hthere
    have hanswer := precise.answer
    rw [withdrawObject_of_missing hthere] at hanswer
    cases hanswer
  obtain ⟨o, hobject⟩ := Option.ne_none_iff_exists'.1 hthere
  by_cases shared : k.Shared path kind
  · -- the other object at the path brings the warning
    obtain ⟨hwarnings, -⟩ := withdrawObject_of_shared hobject shared
    obtain ⟨l, -, hl, hother⟩ := shared
    refine iff_of_false (fun precise => ?_) fun h => hl ?_
    · have hnone := (precise.exported hthere).1
      rw [hwarnings] at hnone
      cases hnone
    · exact (Prod.mk.inj (h.2 path l (List.prefix_refl _) hother)).2
  -- the node goes, so all depends on what else is exported on it and below
  obtain ⟨hwarnings, hafter⟩ := withdrawObject_of_not_shared hroot hobject shared
  constructor
  · refine fun precise => ⟨hthere, fun q l hwithin hother => ?_⟩
    by_contra hne
    refine ((precise.exported hthere).2.2 q l hother hne).ne_none hother ?_
    rw [hafter, if_pos hwithin]
  · rintro ⟨-, alone⟩
    obtain ⟨objects, hnode, hfind⟩ := exists_at? hobject
    refine ⟨(withdrawObject_of_exported hnode hfind).1, fun _ => ⟨hwarnings, ?_, ?_⟩,
      fun hmissing => absurd hmissing hthere⟩
    · have hself : path.IsWithin path := List.prefix_refl _
      refine silent_iff.2 ?_
      rw [hafter, if_pos hself]
    · intro q l hother hne
      have hout : ¬ q.IsWithin path := fun hwithin => hne (alone q l hwithin hother)
      obtain ⟨other, hother⟩ := Option.ne_none_iff_exists'.1 hother
      refine answersAlike_of_object? hother ?_
      rw [hafter, if_neg hout, hother]

/-- A connection with some objects exported one after the other. -/
def exporting (objects : List (ObjectPath × Object)) : Connection :=
  objects.foldl (fun k o => (k.exportObject o.1 o.2).connection) .fresh

/-- The nodes of a service as an application exports them. -/
def nodesOf (app : AppId) (s : Service) : List (ObjectPath × Object) :=
  s.nodes.map fun n => (n.path, n.object app)

/-- The hypothesis is satisfiable, with both sides true: of a service of three nodes, the descriptor
is withdrawn. -/
theorem precise_iff_descriptor :
    Precise Sample.label.path .descriptor (exporting (nodesOf 0 Sample.battery))
      ((exporting (nodesOf 0 Sample.battery)).perform {}
        (.withdrawObject Sample.label.path .descriptor)) := by
  refine (precise_iff _ _ _ (by decide)).2 ⟨by decide, fun q l hwithin hthere => ?_⟩
  obtain ⟨o, hobject⟩ := Option.ne_none_iff_exists'.1 hthere
  obtain ⟨objects, hnode, -⟩ := exists_at? hobject
  have hkey : q ∈ (exporting (nodesOf 0 Sample.battery)).objects.nodes.keys :=
    FinMap.mem_keys_iff.2 (Option.isSome_iff_exists.2 ⟨objects, hnode⟩)
  have hpath : ∀ q ∈ (exporting (nodesOf 0 Sample.battery)).objects.nodes.keys,
      q.IsWithin Sample.label.path → q = Sample.label.path := by decide
  obtain rfl := hpath q hkey hwithin
  cases l with
  | descriptor => rfl
  | _ => exact absurd rfl hthere

/-- An advertisement. -/
def advertisement : Object :=
  .advertisement ⟨advertisementPath, (Application.fresh 0 Sample.profile).advertised⟩

/-- A path below that of the service, where another application has its object manager. -/
def within : ObjectPath := Sample.batteryPath.push ⟨"inner", by decide, by decide⟩

/-- **A withdrawal can touch more than it names, or less.**  A service is withdrawn: where it is not
exported, the withdrawal fails; where an advertisement is exported at its path too, there is a
warning; and where the object manager of another application lies below, that goes as well. -/
theorem not_precise :
    let precise (others : List (ObjectPath × Object)) : Prop :=
      Precise Sample.batteryPath .service (exporting others)
        ((exporting others).perform {} (.withdrawObject Sample.batteryPath .service))
    ¬ precise [] ∧
      ¬ precise (nodesOf 0 Sample.battery ++ [(Sample.batteryPath, advertisement)]) ∧
      ¬ precise (nodesOf 0 Sample.battery ++ [(within, .objectManager 1)]) := by
  refine ⟨fun h => ?_, fun h => ?_, fun h => ?_⟩
  · exact absurd h.answer nofun
  · exact absurd (h.exported (by decide)).1 (by decide)
  · have halike := (h.exported (by decide)).2.2 within .objectManager (by decide) (by decide)
    exact halike.ne_none (by decide) (by decide)

end Connection
end GattServer
