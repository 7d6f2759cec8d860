/-
# What goes over a connection

A connection conveys exchanges: it carries the calls out, with whatever comes of them, or the calls
get lost and fail; and in between peers may call methods (`Connection.Conveys`).  Unlike
`Connection.Carries`, this keeps what was sent.  Whatever applications do on a bus of a rehearsal
is conveyed, and the messages are those on record (`Script.conveys_record`).

Of the messages, the signals of object managers are looked at.  Some are sent because an application
asks for them, and some because an object is exported or withdrawn below an object manager.  If
there is an object manager at one path only, the calls that succeed tell all of them
(`Connection.Conveys.signals_eq`).
-/

import GattServer.Proofs.Display
import GattServer.Proofs.Manager

namespace GattServer

/-! ### Object managers in the tree -/

namespace ObjectPath

theorem mem_ancestors {p q : ObjectPath} : q ∈ p.ancestors ↔ p.IsBelow q := by
  simp only [ancestors, List.mem_map, List.mem_range]
  constructor
  · rintro ⟨n, hn, rfl⟩
    refine ⟨List.take_prefix n _, fun h => ?_⟩
    have hlength := congrArg (fun p => p.segments.length) h
    simp only [List.length_take] at hlength
    omega
  · rintro ⟨hwithin, hne⟩
    refine ⟨q.segments.length, ?_, congrArg mk (List.prefix_iff_eq_take.1 hwithin).symm⟩
    refine lt_of_le_of_ne hwithin.length_le fun hlength => hne ?_
    exact congrArg mk (hwithin.eq_of_length hlength).symm

end ObjectPath

/-- Whether an object manager at `root`, if there is one, tells of an object at a path. -/
def overhears (managed : Bool) (root path : ObjectPath) : Bool :=
  managed && decide (path.IsBelow root)

namespace ObjectTree

variable {t : ObjectTree} {root path q : ObjectPath} {kind : ObjectKind} {o : Object}

/-- There is no object manager but at one path. -/
def OnlyAt (root : ObjectPath) (t : ObjectTree) : Prop := ∀ q, t.manages q = true → q = root

/-- **The only object manager is the closest one above everything below it.** -/
theorem OnlyAt.manager?_eq (only : t.OnlyAt root) (path : ObjectPath) :
    t.manager? path = if overhears (t.manages root) root path then some root else none := by
  have hfound : ∀ q ∈ t.manager? path, q = root ∧ overhears (t.manages root) root path = true := by
    intro q hq
    have hmanages := List.find?_some hq
    have habove := ObjectPath.mem_ancestors.1 (List.mem_reverse.1 (List.mem_of_find?_eq_some hq))
    obtain rfl := only q hmanages
    exact ⟨rfl, Bool.and_eq_true_iff.2 ⟨hmanages, decide_eq_true habove⟩⟩
  cases h : t.manager? path with
  | some q =>
    obtain ⟨rfl, hroot⟩ := hfound q h
    rw [if_pos hroot]
  | none =>
    refine (if_neg fun hroot => ?_).symm
    obtain ⟨hmanages, habove⟩ := Bool.and_eq_true_iff.1 hroot
    have hmem := ObjectPath.mem_ancestors.2 (of_decide_eq_true habove)
    exact List.find?_eq_none.1 h root (List.mem_reverse.2 hmem) hmanages

theorem manages_put_of_path_ne (h : q ≠ path) : (t.put path o).manages q = t.manages q := by
  rw [manages, object?_put_of_ne t (Or.inl h), manages]

theorem manages_put_of_ne (h : o.kind ≠ .objectManager) :
    (t.put path o).manages q = t.manages q := by
  rw [manages, object?_put_of_ne _ (Or.inr h.symm), manages]

/-- Exporting an object manager adds it to those there are. -/
theorem manages_put_self (h : o.kind = .objectManager) : (t.put path o).manages path = true := by
  rw [manages, ← h, object?_put_self]
  rfl

theorem manages_modify (f : Object → Object) :
    (t.modify path .characteristic f).manages q = t.manages q := by
  have hkind : ObjectKind.objectManager ≠ .characteristic := nofun
  rw [manages, object?_modify_of_ne t f (Or.inr hkind), manages]

/-- Removing an object adds no object manager. -/
theorem manages_of_remove (h : (t.remove path kind).manages q = true) : t.manages q = true := by
  obtain ⟨o, hobject⟩ := Option.isSome_iff_exists.1 h
  exact Option.isSome_iff_exists.2 ⟨o, (object?_of_remove t hobject).1⟩

end ObjectTree

/-! ### Nodes in the tree -/

namespace ObjectTree

variable {t : ObjectTree} {path q : ObjectPath} {kind : ObjectKind} {o : Object}

theorem at?_foldl_addNode {paths : List ObjectPath} (h : ((paths.foldl addNode t).at? q).isSome) :
    (t.at? q).isSome ∨ q ∈ paths := by
  induction paths generalizing t with
  | nil => exact Or.inl h
  | cons p paths ih =>
    rcases ih h with hadded | hlater
    · by_cases hq : q = p
      · exact Or.inr (hq ▸ List.mem_cons_self)
      · refine Or.inl ?_
        unfold addNode at hadded
        split at hadded
        · exact hadded
        · rwa [at?, FinMap.find?_insert_of_ne _ _ hq] at hadded
    · exact Or.inr (List.mem_cons_of_mem _ hlater)

/-- **Putting an object makes no nodes but those on the way to it.** -/
theorem at?_put (h : ((t.put path o).at? q).isSome) : (t.at? q).isSome ∨ path.IsWithin q := by
  have hgrown : ((t.grow path).at? q).isSome := by
    rw [at?, put] at h
    by_cases hq : q = path
    · exact hq ▸ at?_grow_self t path
    · rwa [FinMap.find?_modify_of_ne _ _ hq] at h
  refine (at?_foldl_addNode hgrown).imp_right fun hmem => ?_
  rcases List.mem_append.1 hmem with habove | hself
  · exact (ObjectPath.mem_ancestors.1 habove).1
  · exact List.mem_singleton.1 hself ▸ List.prefix_refl _

theorem at?_modify (f : Object → Object) :
    ((t.modify path kind f).at? q).isSome = (t.at? q).isSome := by
  rw [at?, modify, at?]
  by_cases hq : q = path
  · rw [hq, FinMap.find?_modify_self, Option.isSome_map]
  · rw [FinMap.find?_modify_of_ne _ _ hq]

/-- Removing an object makes no nodes. -/
theorem at?_remove (h : ((t.remove path kind).at? q).isSome) : (t.at? q).isSome := by
  unfold remove at h
  split at h
  · exact h
  · next objects hnode =>
    split_ifs at h
    · by_cases hq : q = path
      · rw [hq, hnode]
        rfl
      · rwa [at?, FinMap.find?_insert_of_ne _ _ hq] at h
    · rw [at?, cut, FinMap.find?_filterKeys] at h
      split_ifs at h
      · exact h
      · cases h

end ObjectTree

/-! ### Signals of object managers -/

/-- A signal that an object manager sends. -/
def Message.isSignal : Message → Bool
  | .interfacesAdded _ _ _ | .interfacesRemoved _ _ _ => true
  | _ => false

/-- The signals of object managers among some messages. -/
def signalsOf (messages : List Message) : List Message := messages.filter Message.isSignal

theorem signalsOf_append (xs ys : List Message) :
    signalsOf (xs ++ ys) = signalsOf xs ++ signalsOf ys := List.filter_append ..

theorem signalsOf_eq_self {messages : List Message} (h : ∀ m ∈ messages, m.isSignal = true) :
    signalsOf messages = messages := List.filter_eq_self.2 h

/-- What is only found in signals can be counted there. -/
theorem countP_signalsOf {p : Message → Bool} (h : ∀ m, p m = true → m.isSignal = true)
    (messages : List Message) : (signalsOf messages).countP p = messages.countP p := by
  rw [signalsOf, List.countP_filter]
  refine List.countP_congr fun m _ => ?_
  rw [Bool.and_eq_true, and_iff_left_iff_imp]
  exact h m

/-- The signals that a call brings about if it succeeds, where the only object manager, if any, is
at one path.  An application asks for some; the others come from the connection. -/
def Call.tells (managed : Bool) (root : ObjectPath) : Call → List Message
  | .announce manager path interfaces => [.interfacesAdded manager path interfaces]
  | .retract manager path names => [.interfacesRemoved manager path names]
  | .exportObject path o =>
    if overhears managed root path then
      [.interfacesAdded root path ((∅ : InterfaceMap).insert o.kind.interface o.properties)]
    else []
  | .withdrawObject path kind =>
    if overhears managed root path then [.interfacesRemoved root path [kind.interface]] else []
  | _ => []

/-- A call exports or withdraws an object below a path. -/
def Call.Touches (root : ObjectPath) (c : Call) : Prop := ∃ x ∈ c.object?, x.1.IsBelow root

/-- A call may come before another one: it does not take the object manager at a path along, or the
other one touches nothing below. -/
def Call.Precedes (root : ObjectPath) (c d : Call) : Prop :=
  c.Spares root .objectManager ∨ ¬ d.Touches root

namespace Call

variable {root : ObjectPath} {c : Call} {cs ds : List Call}

theorem pairwise_of_spares (spares : ∀ c ∈ cs, c.Spares root .objectManager) :
    cs.Pairwise (Precedes root) :=
  List.pairwise_of_forall_mem_list fun c hc _ _ => Or.inl (spares c hc)

/-- Calls that take no object manager along may come before all others. -/
theorem pairwise_append_of_spares (spares : ∀ c ∈ cs, c.Spares root .objectManager)
    (ordered : ds.Pairwise (Precedes root)) : (cs ++ ds).Pairwise (Precedes root) :=
  List.pairwise_append.2
    ⟨pairwise_of_spares spares, ordered, fun c hc _ _ => Or.inl (spares c hc)⟩

theorem pairwise_cons_of_spares (spares : c.Spares root .objectManager)
    (ordered : ds.Pairwise (Precedes root)) : (c :: ds).Pairwise (Precedes root) :=
  List.pairwise_cons.2 ⟨fun _ _ => Or.inl spares, ordered⟩

end Call

/-- Whether there is an object manager does not matter to calls that touch nothing below it. -/
theorem Call.tells_of_not_touches {root : ObjectPath} {c : Call} (h : ¬ c.Touches root)
    (managed managed' : Bool) : c.tells managed root = c.tells managed' root := by
  have hdeaf : ∀ x ∈ c.object?, ∀ managed, overhears managed root x.1 = false := fun x hx managed =>
    Bool.and_eq_false_iff.2 (Or.inr (decide_eq_false fun hbelow => h ⟨x, hx, hbelow⟩))
  cases c with
  | exportObject path o => rw [tells, tells, hdeaf _ rfl, hdeaf _ rfl]
  | withdrawObject path kind => rw [tells, tells, hdeaf _ rfl, hdeaf _ rfl]
  | _ => rfl

/-- The signals that an exchange brings about. -/
def Exchange.tells {σ : Type} (managed : Bool) (root : ObjectPath) (e : Exchange σ) :
    List Message :=
  if e.Succeeded then e.call.tells managed root else []

theorem Exchange.tells_of_silent {σ : Type} {managed : Bool} {root : ObjectPath} {e : Exchange σ}
    (h : e.call.tells managed root = []) : e.tells managed root = [] := by
  rw [tells, h, ite_self]

theorem Exchange.isManagerExport_of_quiet {σ : Type} {e : Exchange σ} (quiet : ¬ e.Launches)
    (succeeded : e.Succeeded) : e.call.isManagerExport = false :=
  Bool.eq_false_iff.2 fun hcall => quiet ⟨hcall, succeeded⟩

theorem Exchange.flatMap_tells {σ : Type} {managed : Bool} {root : ObjectPath}
    {t : List (Exchange σ)} (h : ∀ e ∈ t, e.Succeeded) :
    t.flatMap (Exchange.tells managed root) =
      (t.map Exchange.call).flatMap (Call.tells managed root) := by
  rw [List.flatMap_map]
  exact List.flatMap_congr fun e he => if_pos (h e he)

namespace Connection

variable {σ : Type} {k k' k'' : Connection} {e : Exchange σ} {t u : List (Exchange σ)}
  {daemon : Daemon} {c : Call} {root path q : ObjectPath} {ms ns : List Message}

/-- A call that fails leaves the objects alone, and no object manager tells of it. -/
theorem perform_of_failed {cause : Error} (h : (k.perform daemon c).answer = .error cause) :
    (k.perform daemon c).connection.objects = k.objects ∧
      signalsOf (k.perform daemon c).messages = [] := by
  cases c with
  | exportObject path o =>
    simp only [perform, exportObject] at h ⊢
    split_ifs at h ⊢
    exact ⟨rfl, rfl⟩
  | withdrawObject path kind =>
    simp only [perform, withdrawObject] at h ⊢
    split at h
    · exact ⟨rfl, rfl⟩
    · split_ifs at h ⊢
      exact ⟨rfl, rfl⟩
  | updateValue path value =>
    simp only [perform, updateValue] at h ⊢
    split_ifs at h ⊢
    exact ⟨rfl, rfl⟩
  | requestName name =>
    refine ⟨perform_of_detached trivial, ?_⟩
    simp only [perform, requestName]
    split
    · rfl
    · split
      · rfl
      · rfl
      · split <;> rfl
  | registerAdvertisement | unregisterAdvertisement => exact ⟨rfl, rfl⟩
  | publishTree | announce | retract => cases h

theorem isSignal_announcements {t : ObjectTree} {o : Object} :
    ∀ m ∈ announcements t path o, m.isSignal = true := by
  intro m hm
  unfold announcements at hm
  split_ifs at hm
  · obtain ⟨e, -, rfl⟩ := List.mem_map.1 hm
    rfl
  · split at hm
    · cases hm
    · rw [List.mem_singleton.1 hm]
      rfl

theorem messages_exportObject {o : Object}
    (done : (k.perform daemon (.exportObject path o)).answer = .ok ()) :
    (k.perform daemon (.exportObject path o)).messages = announcements k.objects path o := by
  simp only [perform, exportObject] at done ⊢
  split_ifs at done ⊢
  rfl

/-- **A call that succeeds brings about the signals it tells**, unless it exports an object
manager. -/
theorem signals_perform (only : k.objects.OnlyAt root)
    (done : (k.perform daemon c).answer = .ok ()) (plain : c.isManagerExport = false) :
    signalsOf (k.perform daemon c).messages = c.tells (k.objects.manages root) root := by
  cases c with
  | exportObject path o =>
    have hkind : o.kind ≠ .objectManager := of_decide_eq_false plain
    rw [messages_exportObject done, signalsOf_eq_self isSignal_announcements, announcements,
      if_neg hkind, only.manager?_eq, Call.tells]
    split_ifs <;> rfl
  | withdrawObject path kind =>
    have hmessages : (k.perform daemon (.withdrawObject path kind)).messages =
        (k.objects.manager? path).toList.map fun manager =>
          .interfacesRemoved manager path [kind.interface] := by
      simp only [perform, withdrawObject] at done ⊢
      split at done
      · cases done
      · split_ifs at done ⊢ <;> rfl
    rw [hmessages, only.manager?_eq, Call.tells]
    split_ifs <;> rfl
  | updateValue path value =>
    simp only [perform, updateValue] at done ⊢
    split_ifs at done ⊢
    rfl
  | requestName name =>
    simp only [perform, requestName] at done ⊢
    split
    · rfl
    · split
      · rfl
      · rfl
      · split <;> rfl
  | _ => rfl

/-- **A call adds no object manager**, unless it exports one. -/
theorem manages_of_perform (done : (k.perform daemon c).answer = .ok ())
    (plain : c.isManagerExport = false)
    (h : (k.perform daemon c).connection.objects.manages q = true) :
    k.objects.manages q = true := by
  by_cases hdetached : c.Detached
  · rwa [perform_of_detached hdetached] at h
  cases c with
  | exportObject path o =>
    have hkind : o.kind ≠ .objectManager := of_decide_eq_false plain
    rwa [(perform_exportObject done).2, ObjectTree.manages_put_of_ne hkind] at h
  | withdrawObject path kind =>
    rw [perform_withdrawObject done] at h
    exact ObjectTree.manages_of_remove h
  | updateValue path value =>
    rwa [perform_updateValue done, ObjectTree.manages_modify] at h
  | _ => exact absurd trivial hdetached

/-- **An object manager stays** while calls spare it. -/
theorem manages_perform (done : (k.perform daemon c).answer = .ok ())
    (plain : c.isManagerExport = false) (spares : c.Spares q .objectManager) :
    (k.perform daemon c).connection.objects.manages q = k.objects.manages q := by
  by_cases hdetached : c.Detached
  · rw [perform_of_detached hdetached]
  cases c with
  | exportObject path o =>
    have hkind : o.kind ≠ .objectManager := of_decide_eq_false plain
    rw [(perform_exportObject done).2, ObjectTree.manages_put_of_ne hkind]
  | withdrawObject path kind =>
    rw [perform_withdrawObject done, ObjectTree.manages, ObjectTree.manages,
      ObjectTree.object?_remove_of_not_isWithin _ spares]
  | updateValue path value => rw [perform_updateValue done, ObjectTree.manages_modify]
  | _ => exact absurd trivial hdetached

theorem manages_receive (m : MethodCall) :
    (k.receive m).2.1.objects.manages q = k.objects.manages q := by
  rcases k.receive_objects m with hsame | ⟨notifying, hmodified⟩
  · rw [hsame]
  · rw [hmodified, ObjectTree.manages_modify]

/-- Answering a peer sends no signal of an object manager. -/
theorem signals_receive (k : Connection) (m : MethodCall) : signalsOf (k.receive m).2.2 = [] := by
  unfold receive
  split
  · rfl
  · split
    · rfl
    · split
      · rfl
      · split_ifs
        · simp only [subscribe]
          split_ifs <;> rfl
        · rfl

/-! ### Conveying exchanges -/

/-- A connection conveys exchanges one after the other, whatever the daemons answer each time, and
these messages are sent.  Calls may get lost on the way, and in between peers may call methods. -/
inductive Conveys : Connection → List (Exchange σ) → List Message → Connection → Prop where
  | nil {k : Connection} : Conveys k [] [] k
  | carried {k k' : Connection} {e : Exchange σ} {t : List (Exchange σ)} {ms : List Message}
    (daemon : Daemon) (answered : e.answer = (k.perform daemon e.call).answer)
    (rest : Conveys (k.perform daemon e.call).connection t ms k') :
    Conveys k (e :: t) ((k.perform daemon e.call).messages ++ ms) k'
  | lost {k k' : Connection} {e : Exchange σ} {t : List (Exchange σ)} {ms : List Message}
    {cause : Error} (failed : e.answer = .error cause) (rest : Conveys k t ms k') :
    Conveys k (e :: t) ms k'
  | peer {k k' : Connection} {t : List (Exchange σ)} {ms : List Message} (m : MethodCall)
    (rest : Conveys (k.receive m).2.1 t ms k') : Conveys k t ((k.receive m).2.2 ++ ms) k'

theorem Conveys.append (h : Conveys k t ms k') (h' : Conveys k' u ns k'') :
    Conveys k (t ++ u) (ms ++ ns) k'' := by
  induction h with
  | nil => exact h'
  | carried daemon answered rest ih =>
    rw [List.append_assoc]
    exact .carried daemon answered (ih h')
  | lost failed rest ih => exact .lost failed (ih h')
  | peer m rest ih =>
    rw [List.append_assoc]
    exact .peer m (ih h')

theorem Conveys.split (h : Conveys k (t ++ u) ms k'') :
    ∃ k' ms₁ ms₂, ms = ms₁ ++ ms₂ ∧ Conveys k t ms₁ k' ∧ Conveys k' u ms₂ k'' := by
  generalize hw : t ++ u = w at h
  induction h generalizing t with
  | @nil k =>
    obtain ⟨rfl, rfl⟩ := List.append_eq_nil_iff.1 hw
    exact ⟨k, [], [], rfl, .nil, .nil⟩
  | @carried k k'' e w ms daemon answered rest ih =>
    obtain _ | ⟨first, t⟩ := t
    · obtain rfl : u = e :: w := hw
      exact ⟨k, [], _, rfl, .nil, .carried daemon answered rest⟩
    · obtain ⟨rfl, hrest⟩ := List.cons.inj hw
      obtain ⟨k', ms₁, ms₂, rfl, hfirst, hlast⟩ := ih hrest
      exact ⟨k', _, ms₂, (List.append_assoc ..).symm, .carried daemon answered hfirst, hlast⟩
  | @lost k k'' e w ms cause failed rest ih =>
    obtain _ | ⟨first, t⟩ := t
    · obtain rfl : u = e :: w := hw
      exact ⟨k, [], _, rfl, .nil, .lost failed rest⟩
    · obtain ⟨rfl, hrest⟩ := List.cons.inj hw
      obtain ⟨k', ms₁, ms₂, rfl, hfirst, hlast⟩ := ih hrest
      exact ⟨k', ms₁, ms₂, rfl, .lost failed hfirst, hlast⟩
  | peer m rest ih =>
    obtain ⟨k', ms₁, ms₂, rfl, hfirst, hlast⟩ := ih hw
    exact ⟨k', _, ms₂, (List.append_assoc ..).symm, .peer m hfirst, hlast⟩

/-- **What every call that succeeds keeps and tells**, if peers keep it as well, holds in the end
and of all signals. -/
theorem Conveys.induct {P : ObjectTree → Prop} {Q : Message → Prop} (h : Conveys k t ms k')
    (settled : Settled fun k => P k.objects)
    (step : ∀ e ∈ t, ∀ (k : Connection) (daemon : Daemon), P k.objects →
      (k.perform daemon e.call).answer = .ok () → e.Succeeded →
        P (k.perform daemon e.call).connection.objects ∧
          ∀ m ∈ signalsOf (k.perform daemon e.call).messages, Q m)
    (first : P k.objects) : P k'.objects ∧ ∀ m ∈ signalsOf ms, Q m := by
  induction h with
  | nil => exact ⟨first, fun m hm => absurd hm List.not_mem_nil⟩
  | @carried k k' e t ms daemon answered rest ih =>
    obtain ⟨hfirst, hstep⟩ := List.forall_mem_cons.1 step
    have htold : P (k.perform daemon e.call).connection.objects ∧
        ∀ m ∈ signalsOf (k.perform daemon e.call).messages, Q m := by
      cases hanswer : (k.perform daemon e.call).answer with
      | ok => exact hfirst k daemon first hanswer (answered.trans hanswer)
      | error cause =>
        obtain ⟨hobjects, hsignals⟩ := perform_of_failed hanswer
        rw [hobjects, hsignals]
        exact ⟨first, fun m hm => absurd hm List.not_mem_nil⟩
    obtain ⟨hlast, hmore⟩ := ih hstep htold.1
    rw [signalsOf_append]
    exact ⟨hlast, List.forall_mem_append.2 ⟨htold.2, hmore⟩⟩
  | lost failed rest ih => exact ih (List.forall_mem_cons.1 step).2 first
  | peer m rest ih =>
    rw [signalsOf_append, signals_receive]
    exact ih step (settled _ m first)

theorem Conveys.keeps {P : ObjectTree → Prop} (h : Conveys k t ms k')
    (settled : Settled fun k => P k.objects)
    (step : ∀ e ∈ t, ∀ (k : Connection) (daemon : Daemon), P k.objects →
      (k.perform daemon e.call).answer = .ok () → e.Succeeded →
        P (k.perform daemon e.call).connection.objects) (first : P k.objects) :
    P k'.objects :=
  (h.induct (Q := fun _ => True) settled
    (fun e he k daemon hk done succeeded =>
      ⟨step e he k daemon hk done succeeded, fun _ _ => trivial⟩) first).1

theorem settled_onlyAt : Settled fun k => k.objects.OnlyAt root := fun _ m only q hq =>
  only q ((manages_receive m).symm.trans hq)

/-- Where an object manager is exported, it is the only one if there was none elsewhere. -/
theorem onlyAt_perform (only : k.objects.OnlyAt root) (done : (k.perform daemon c).answer = .ok ())
    (place : ∀ q o, c = .exportObject q o → o.kind = .objectManager → q = root) :
    (k.perform daemon c).connection.objects.OnlyAt root := by
  intro q hq
  by_cases plain : c.isManagerExport = true
  · cases c with
    | exportObject path o =>
      have hkind : o.kind = .objectManager := of_decide_eq_true plain
      obtain rfl := place path o rfl hkind
      rw [(perform_exportObject done).2] at hq
      by_contra hne
      exact hne (only q ((ObjectTree.manages_put_of_path_ne hne).symm.trans hq))
    | _ => cases plain
  · exact only q (manages_of_perform done (Bool.eq_false_iff.2 plain) hq)

/-- **There is an object manager at one path only**, if it is exported nowhere else. -/
theorem Conveys.onlyAt (h : Conveys k t ms k')
    (place : ∀ e ∈ t, ∀ q o, e.call = .exportObject q o → o.kind = .objectManager → q = root)
    (only : k.objects.OnlyAt root) : k'.objects.OnlyAt root :=
  h.keeps settled_onlyAt (fun e he _ _ hk done _ => onlyAt_perform hk done (place e he)) only

/-- **An object manager that is exported is there.** -/
theorem Conveys.manages_of_exported {o : Object} (h : Conveys k [e] ms k')
    (hcall : e.call = .exportObject q o) (hkind : o.kind = .objectManager)
    (succeeded : e.Succeeded) : k'.objects.manages q = true := by
  generalize ht : [e] = t at h
  induction h with
  | nil => cases ht
  | @carried k k' f t ms daemon answered rest ih =>
    obtain ⟨rfl, rfl⟩ := List.cons.inj ht
    have done : (k.perform daemon (.exportObject q o)).answer = .ok () := by
      rw [← hcall, ← answered, succeeded]
    have hput : (k.perform daemon e.call).connection.objects.manages q = true := by
      rw [hcall, (perform_exportObject done).2]
      exact ObjectTree.manages_put_self hkind
    refine rest.keeps (P := fun tree => tree.manages q = true) (fun k m hk => ?_)
      (fun f hf => absurd hf List.not_mem_nil) hput
    exact (manages_receive m).trans hk
  | @lost k k' f t ms cause failed rest ih =>
    obtain ⟨rfl, -⟩ := List.cons.inj ht
    rw [Exchange.Succeeded, failed] at succeeded
    cases succeeded
  | peer m rest ih => exact ih ht

/-- No object manager comes about unless one is exported. -/
theorem Conveys.manages_of (h : Conveys k t ms k') (quiet : ∀ e ∈ t, ¬ e.Launches)
    (hmanages : k'.objects.manages q = true) : k.objects.manages q = true := by
  by_contra hnot
  refine h.keeps (P := fun tree => tree.manages q ≠ true) (fun k m hk hq => ?_) ?_ hnot hmanages
  · exact hk ((manages_receive m).symm.trans hq)
  · intro e he k daemon hk done succeeded hq
    have plain := Exchange.isManagerExport_of_quiet (quiet e he) succeeded
    exact hk (manages_of_perform done plain hq)

/-- **An object manager stays** while all calls spare it. -/
theorem Conveys.manages_eq (h : Conveys k t ms k') (quiet : ∀ e ∈ t, ¬ e.Launches)
    (spares : ∀ e ∈ t, e.call.Spares q .objectManager) :
    k'.objects.manages q = k.objects.manages q := by
  refine h.keeps (P := fun tree => tree.manages q = k.objects.manages q)
    (fun k m hk => (manages_receive m).trans hk) ?_ rfl
  intro e he k daemon hk done succeeded
  have plain := Exchange.isManagerExport_of_quiet (quiet e he) succeeded
  rw [manages_perform done plain (spares e he), hk]

/-- **Exactly the calls that succeed bring about signals**, while no object manager is exported.
Nothing may be exported or withdrawn below the object manager by the same exchanges once a
withdrawal may have taken the object manager along. -/
theorem Conveys.signals_eq (h : Conveys k t ms k') (quiet : ∀ e ∈ t, ¬ e.Launches)
    (only : k.objects.OnlyAt root)
    (ordered : (t.map Exchange.call).Pairwise (Call.Precedes root)) :
    signalsOf ms = t.flatMap (Exchange.tells (k.objects.manages root) root) := by
  induction h with
  | nil => rfl
  | @carried k k' e t ms daemon answered rest ih =>
    obtain ⟨hfirst, hrest⟩ := List.forall_mem_cons.1 quiet
    rw [List.map_cons, List.pairwise_cons] at ordered
    rw [signalsOf_append, List.flatMap_cons]
    cases hanswer : (k.perform daemon e.call).answer with
    | ok =>
      have succeeded : e.Succeeded := answered.trans hanswer
      have plain := Exchange.isManagerExport_of_quiet hfirst succeeded
      have only' : (k.perform daemon e.call).connection.objects.OnlyAt root := fun q hq =>
        only q (manages_of_perform hanswer plain hq)
      rw [signals_perform only hanswer plain, Exchange.tells, if_pos succeeded,
        ih hrest only' ordered.2]
      refine congrArg (_ ++ ·) (List.flatMap_congr fun f hf => ?_)
      -- the object manager is as it was before, or it does not matter to the later call
      rcases ordered.1 f.call (List.mem_map_of_mem hf) with spares | untouched
      · rw [manages_perform hanswer plain spares]
      · rw [Exchange.tells, Exchange.tells, Call.tells_of_not_touches untouched]
    | error cause =>
      obtain ⟨hobjects, hsignals⟩ := perform_of_failed hanswer
      rw [hobjects] at ih
      have failed : ¬ e.Succeeded := by
        rw [Exchange.Succeeded, answered, hanswer]
        exact nofun
      rw [hsignals, Exchange.tells, if_neg failed, ih hrest only ordered.2]
  | @lost k k' e t ms cause answered rest ih =>
    rw [List.map_cons, List.pairwise_cons] at ordered
    have failed : ¬ e.Succeeded := by
      rw [Exchange.Succeeded, answered]
      exact nofun
    rw [List.flatMap_cons, Exchange.tells, if_neg failed, List.nil_append]
    exact ih (List.forall_mem_cons.1 quiet).2 only ordered.2
  | @peer k k' t ms m rest ih =>
    have only' : (k.receive m).2.1.objects.OnlyAt root := fun q hq =>
      only q (by rwa [manages_receive] at hq)
    rw [signalsOf_append, signals_receive, ih quiet only' ordered, manages_receive]
    rfl

end Connection

/-! ### Buses of a rehearsal -/

/-- The messages among events. -/
def sentIn (events : List Event) : List Message :=
  events.filterMap fun
    | .sent _ m => some m
    | _ => none

/-- The messages on record, oldest first. -/
def Traffic.sent (b : Traffic) : List Message := sentIn b.events

/-- A bus passes every call on to its connection and puts on record what that sends, or the call
gets lost. -/
structure Bus.Transparent (bus : Bus Traffic) : Prop where
  call : ∀ c b,
    (∃ daemon, (bus.call c b).1 = (b.connection.perform daemon c).answer ∧
      (bus.call c b).2.connection = (b.connection.perform daemon c).connection ∧
      (bus.call c b).2.sent = b.sent ++ (b.connection.perform daemon c).messages) ∨
    ∃ cause, (bus.call c b).1 = .error cause ∧ (bus.call c b).2.connection = b.connection ∧
      (bus.call c b).2.sent = b.sent
  warn : ∀ w b, (bus.warn w b).connection = b.connection ∧ (bus.warn w b).sent = b.sent

namespace Traffic

variable {b : Traffic} {daemon : Daemon} {c : Call}

theorem sent_log_call {failed : Bool} : (b.log (.call c failed)).sent = b.sent := by
  simp [sent, sentIn, log]

theorem sent_log_warned {w : Warning} : (b.log (.warned w)).sent = b.sent := by
  simp [sent, sentIn, log]

theorem sent_carry :
    (b.carry daemon c).2.sent = b.sent ++ (b.connection.perform daemon c).messages := by
  simp [sent, sentIn, carry, List.filterMap_map]

theorem transparent_ownBus (daemon : Daemon) : (ownBus daemon).Transparent where
  call _ _ := Or.inl ⟨daemon, rfl, rfl, sent_carry⟩
  warn _ _ := ⟨rfl, sent_log_warned⟩

theorem transparent_sharedBus (daemon : Daemon) : (sharedBus daemon).Transparent where
  call c b := by
    simp only [sharedBus, tryCarry]
    split
    · next cause faults _ => exact Or.inr ⟨cause, rfl, rfl, sent_log_call⟩
    · next faults _ =>
      refine Or.inl ⟨daemon, rfl, rfl, sent_carry.trans ?_⟩
      rw [sent_log_call]
      rfl
  warn _ _ := ⟨rfl, sent_log_warned⟩

end Traffic

theorem Host.transparent_busOf (h : Host) (a : Hosted) : (h.busOf a).Transparent := by
  unfold busOf
  split_ifs
  · exact Traffic.transparent_sharedBus _
  · exact Traffic.transparent_ownBus _

namespace Script

variable {σ α : Type} {bus : Bus Traffic}

/-- **What a bus of a rehearsal makes of a script, its connection conveys**, and the messages are
those that come on record. -/
theorem conveys_record (transparent : bus.Transparent) (x : Script σ α) (b : Traffic) :
    ∃ ms, b.connection.Conveys (x.record bus b).1 ms (x.record bus b).2.2.connection ∧
      (x.record bus b).2.2.sent = b.sent ++ ms := by
  induction x generalizing b with
  | done a => exact ⟨[], .nil, (List.append_nil _).symm⟩
  | warn w next ih =>
    obtain ⟨hconnection, hsent⟩ := transparent.warn w b
    have hnext := ih (bus.warn w b)
    rwa [hconnection, hsent] at hnext
  | call s c next ih =>
    obtain ⟨ms, hconveys, hms⟩ := ih (bus.call c b).1 (bus.call c b).2
    rcases transparent.call c b with
      ⟨daemon, hanswer, hconnection, hsent⟩ | ⟨cause, hanswer, hconnection, hsent⟩
    · refine ⟨(b.connection.perform daemon c).messages ++ ms, ?_, ?_⟩
      · rw [hconnection] at hconveys
        exact .carried daemon hanswer hconveys
      · rw [← List.append_assoc, ← hsent]
        exact hms
    · refine ⟨ms, ?_, hsent ▸ hms⟩
      rw [hconnection] at hconveys
      exact .lost hanswer hconveys

end Script

/-- **What a bus of a rehearsal makes of some acts, its connection conveys.** -/
theorem Application.conveys_play {bus : Bus Traffic} (transparent : bus.Transparent)
    (app : Application) (acts : List Act) (b : Traffic) :
    ∃ ms, b.connection.Conveys (play bus app acts b).1 ms (play bus app acts b).2.2.connection ∧
      (play bus app acts b).2.2.sent = b.sent ++ ms := by
  induction acts generalizing app b with
  | nil => exact ⟨[], .nil, (List.append_nil _).symm⟩
  | cons a acts ih =>
    obtain ⟨ms, hfirst, hms⟩ := Script.conveys_record transparent (app.script a.operation) b
    obtain ⟨ns, hrest, hns⟩ := ih ((app.script a.operation).record bus b).2.1.2
      ((app.script a.operation).record bus b).2.2
    refine ⟨ms ++ ns, hfirst.append hrest, ?_⟩
    rw [← List.append_assoc, ← hms]
    exact hns

end GattServer
