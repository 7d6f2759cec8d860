/-
# Where exported objects come from

An object has the address of requests about it: the number of an application and the UUIDs of the
node.  Replacing the value and subscribing leave the address as it is (`Object.address?_withValue`,
`Object.address?_withNotifying`), and so do calls from peers (`Connection.Addressed.of_receive`).
A call on a bus either leaves what is at a path as it is, or has exported it
(`Connection.Addressed.of_call`).

Nodes are exported by additions only, and what an addition exports are the nodes of the service that
was given to it (`Application.exported_of_performs`).
-/

import GattServer.Proofs.Conveyance

namespace GattServer

/-! ### Addresses -/

/-- Where requests about an object are sent, if it takes any: the application and the target. -/
def Object.address? : Object → Option (AppId × Target)
  | .characteristic o => some (o.app, o.target)
  | .descriptor o => some (o.app, o.target)
  | .objectManager _ | .service _ | .advertisement _ => none

@[simp] theorem Object.address?_withValue (o : Object) (value : List UInt8) :
    (o.withValue value).address? = o.address? := by
  cases o <;> rfl

@[simp] theorem Object.address?_withNotifying (o : Object) (notifying : Bool) :
    (o.withNotifying notifying).address? = o.address? := by
  cases o <;> rfl

/-- What a request about a node is about. -/
def Node.target? : Node → Option Target
  | .service _ => none
  | .characteristic s c => some (.characteristic s.properties.uuid c.properties.uuid)
  | .descriptor s c d =>
    some (.descriptor s.properties.uuid c.properties.uuid d.properties.uuid)

theorem Node.address?_object (app : AppId) (n : Node) :
    (n.object app).address? = n.target?.map (app, ·) := by
  cases n <;> rfl

namespace Connection

variable {k k' : Connection} {q : ObjectPath} {kind : ObjectKind} {daemon : Daemon} {c : Call}
  {m : MethodCall} {address : Option (AppId × Target)}

/-- The object of a kind at a path is there, and requests about it have an address. -/
def Addressed (q : ObjectPath) (kind : ObjectKind) (address : Option (AppId × Target))
    (k : Connection) : Prop :=
  ∃ o, k.objects.object? q kind = some o ∧ o.address? = address

theorem not_addressed_fresh : ¬ Connection.fresh.Addressed q kind address := by
  rintro ⟨o, hobject, -⟩
  rw [fresh, ObjectTree.object?_bare] at hobject
  cases hobject

/-- Replacing an object by one of the same address changes no address. -/
theorem Addressed.of_modify {path : ObjectPath} {f : Object → Object}
    (hf : ∀ o, (f o).address? = o.address?)
    (hobjects : k'.objects = k.objects.modify path .characteristic f)
    (h : k'.Addressed q kind address) : k.Addressed q kind address := by
  obtain ⟨o, hobject, haddress⟩ := h
  rw [hobjects] at hobject
  by_cases hat : q = path ∧ kind = .characteristic
  · obtain ⟨rfl, rfl⟩ := hat
    rw [ObjectTree.object?_modify_self] at hobject
    obtain ⟨old, hold, rfl⟩ := Option.map_eq_some_iff.1 hobject
    exact ⟨old, hold, (hf old).symm.trans haddress⟩
  · rw [ObjectTree.object?_modify_of_ne _ _ (not_and_or.1 hat)] at hobject
    exact ⟨o, hobject, haddress⟩

/-- Peers change no address. -/
theorem Addressed.of_receive (h : (k.receive m).2.1.Addressed q kind address) :
    k.Addressed q kind address := by
  rcases k.receive_objects m with hsame | ⟨notifying, hmodified⟩
  · rwa [Addressed, hsame] at h
  · exact h.of_modify (fun o => o.address?_withNotifying notifying) hmodified

/-- **What a call leaves at a path was there before, or the call exported it.** -/
theorem Addressed.of_perform (h : (k.perform daemon c).connection.Addressed q kind address) :
    (k.Addressed q kind address ∧
        ((k.perform daemon c).answer = .ok () → c.object? ≠ some (q, kind))) ∨
      ((k.perform daemon c).answer = .ok () ∧
        ∃ o, c = .exportObject q o ∧ o.kind = kind ∧ o.address? = address) := by
  cases hanswer : (k.perform daemon c).answer with
  | error cause =>
    rw [Addressed, (perform_of_failed hanswer).1] at h
    exact Or.inl ⟨h, nofun⟩
  | ok =>
    obtain ⟨o, hobject, haddress⟩ := h
    by_cases hdetached : c.Detached
    · rw [perform_of_detached hdetached] at hobject
      refine Or.inl ⟨⟨o, hobject, haddress⟩, fun _ => ?_⟩
      cases c with
      | exportObject | withdrawObject | updateValue => exact hdetached.elim
      | _ => exact nofun
    cases c with
    | exportObject path new =>
      rw [(perform_exportObject hanswer).2] at hobject
      by_cases hat : q = path ∧ kind = new.kind
      · obtain ⟨rfl, rfl⟩ := hat
        rw [ObjectTree.object?_put_self] at hobject
        obtain rfl := Option.some.inj hobject
        exact Or.inr ⟨rfl, new, rfl, rfl, haddress⟩
      · rw [ObjectTree.object?_put_of_ne _ (not_and_or.1 hat)] at hobject
        refine Or.inl ⟨⟨o, hobject, haddress⟩, fun _ hsame => hat ?_⟩
        obtain ⟨hpath, hkind⟩ := Prod.mk.inj (Option.some.inj hsame)
        exact ⟨hpath.symm, hkind.symm⟩
    | withdrawObject path kind' =>
      rw [perform_withdrawObject hanswer] at hobject
      obtain ⟨hbefore, hne⟩ := ObjectTree.object?_of_remove _ hobject
      refine Or.inl ⟨⟨o, hbefore, haddress⟩, fun _ hsame => hne ?_⟩
      exact (Option.some.inj hsame).symm
    | updateValue path value =>
      have hbefore : k.Addressed q kind address :=
        Addressed.of_modify (fun o => o.address?_withValue value) (perform_updateValue hanswer)
          ⟨o, hobject, haddress⟩
      exact Or.inl ⟨hbefore, fun _ => nofun⟩
    | _ => exact absurd trivial hdetached

/-- **A call on a bus** is no different: if it gets lost, it has failed and changed nothing. -/
theorem Addressed.of_call {bus : Bus Traffic} {b : Traffic} (transparent : bus.Transparent)
    (h : (bus.call c b).2.connection.Addressed q kind address) :
    (b.connection.Addressed q kind address ∧
        ((bus.call c b).1 = .ok () → c.object? ≠ some (q, kind))) ∨
      ((bus.call c b).1 = .ok () ∧
        ∃ o, c = .exportObject q o ∧ o.kind = kind ∧ o.address? = address) := by
  rcases transparent.call c b with ⟨daemon, hanswer, hconnection, -⟩ | ⟨e, hanswer, hconnection, -⟩
  · rw [hconnection] at h
    rw [hanswer]
    exact h.of_perform
  · rw [hconnection] at h
    rw [hanswer]
    exact Or.inl ⟨h, nofun⟩

end Connection

/-! ### Which acts export nodes -/

namespace Application

variable {app app' : Application} {s : Service} {a : Act} {t : List (Exchange Application)}
  {r : Answer} {e : Exchange Application} {q : ObjectPath} {o : Object}

theorem Addition.exported (course : Addition app s t r app') (he : e ∈ t)
    (hcall : e.call = .exportObject q o) : ∃ n ∈ s.nodes, e.call = n.exported app.id := by
  have hexporting : ∀ nodes : List Node, e ∈ app.exporting nodes →
      ∃ n ∈ nodes, e.call = n.exported app.id := by
    intro nodes he
    obtain ⟨n, hn, rfl⟩ := mem_exporting he
    exact ⟨n, hn, rfl⟩
  have hannouncing : ∀ nodes, e ∉ (app.adopt s).announcing nodes := by
    intro nodes he
    obtain ⟨before, n, after, -, rfl⟩ := mem_announcing he
    cases hcall
  cases course with
  | refused => cases he
  | @rolledBack done rest n e' back _ nodes withdrawals =>
    rcases List.mem_append.1 he with he | he
    · obtain ⟨m, hm, hexported⟩ := hexporting done he
      exact ⟨m, nodes ▸ List.mem_append_left _ hm, hexported⟩
    rcases List.mem_cons.1 he with rfl | he
    · exact ⟨n, by simp [nodes], rfl⟩
    · obtain ⟨-, m, -, hwithdrawn⟩ := mem_of_question withdrawals he
      rw [hwithdrawn] at hcall
      cases hcall
  | unpublished =>
    rcases List.mem_append.1 he with he | he
    · exact hexporting _ he
    · rw [List.mem_singleton.1 he] at hcall
      cases hcall
  | unannounced =>
    rcases List.mem_append.1 he with he | he
    · exact hexporting _ he
    rcases List.mem_cons.1 he with rfl | he
    · cases hcall
    rcases List.mem_append.1 he with he | he
    · exact absurd he (hannouncing _)
    · rw [List.mem_singleton.1 he] at hcall
      cases hcall
  | completed =>
    rcases List.mem_append.1 he with he | he
    · exact hexporting _ he
    rcases List.mem_cons.1 he with rfl | he
    · cases hcall
    · exact absurd he (hannouncing _)

theorem Removal.not_exports (course : Removal app s t r app') (he : e ∈ t) :
    e.call ≠ .exportObject q o := by
  intro hcall
  have hretracting : ∀ app nodes, e ∉ retracting app nodes := by
    intro app nodes he
    obtain ⟨before, n, after, interfaces, -, rfl⟩ := mem_retracting he
    cases hcall
  have hwithdrawing : ∀ app nodes, e ∉ withdrawing app nodes := by
    intro app nodes he
    obtain ⟨n, -, rfl⟩ := mem_withdrawing he
    cases hcall
  cases course with
  | absent => cases he
  | interrupted =>
    rcases List.mem_append.1 he with he | he
    · exact hretracting _ _ he
    · rw [List.mem_singleton.1 he] at hcall
      cases hcall
  | stuck | withdrawn =>
    rcases List.mem_append.1 he with he | he
    · exact hretracting _ _ he
    rcases List.mem_append.1 he with he | he
    · exact hwithdrawing _ _ he
    · rw [List.mem_singleton.1 he] at hcall
      cases hcall

/-- **Only additions export nodes**, and what they export are the nodes of the service that was
given to them. -/
theorem exported_of_performs (performs : app.Performs a.operation t r app') (he : e ∈ t)
    (hcall : e.call = .exportObject q o) (hkind : o.kind.isNode = true) :
    ∃ s n, a = .add s ∧ n ∈ s.nodes ∧ e.call = n.exported app.id := by
  cases performs_course performs with
  | quiet _ calls =>
    have haside := (calls e he).2
    rw [hcall, Call.Aside, hkind] at haside
    cases haside
  | @add s _ _ _ course =>
    obtain ⟨n, hn, hexported⟩ := course.exported he hcall
    exact ⟨s, n, rfl, hn, hexported⟩
  | remove course => exact absurd hcall (course.not_exports he)
  | update =>
    rw [List.mem_singleton.1 he] at hcall
    cases hcall

end Application

end GattServer
