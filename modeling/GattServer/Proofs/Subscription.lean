/-
# Subscriptions

Peers subscribe to an exported characteristic by `StartNotify` and end the subscription by
`StopNotify`; whether someone has subscribed is the property `Notifying`.  Meanwhile peers call
other methods and applications make calls of all sorts, replace the value of the characteristic
again and again, and may fail.  As long as the characteristic is not withdrawn, `Notifying` is
decided by the last of these two calls, a change of it is signalled at once and nothing else is
signalled of it (`Connection.notifying_follows`).

What a move on a connection does to one characteristic is said by one step lemma
(`Connection.Watches.step`): the object stays what it is, but for the value and the subscription.
The move does not see any object but through its kind, so for this the objects have to be filed
under their kinds (`Connection.Filed`).

The exchanges that a connection carries out are moves as well
(`Connection.Carries.exists_goThrough`), so the same is true of what an application exports.
-/

import GattServer.Proofs.Conveyance
import GattServer.Proofs.FlagNames
import GattServer.Proofs.Inquiry

namespace GattServer

/-! ### Flags -/

/-- Whether the flags include `notify` or `indicate`. -/
def CharacteristicFlags.includeNotify (a : CharacteristicFlags) : Bool :=
  a.contains (.single .notify) || a.contains (.single .indicate)

theorem CharacteristicFlags.notifiable_eq (a : CharacteristicFlags) :
    a.notifiable = a.includeNotify := by
  have told := CharacteristicFlag.distinguished
  have hflags : (Flags.ofList [CharacteristicFlag.notify, .indicate]).toList =
      [.notify, .indicate] := by decide
  rw [Bool.eq_iff_iff, notifiable, Flags.intersects_iff_has (by decide), includeNotify,
    Bool.or_eq_true, told.contains_single, told.contains_single]
  simp only [← told.mem_toList (a := Flags.ofList _), hflags, List.exists_mem_cons_iff,
    List.not_mem_nil, false_and, exists_false, or_false]

/-! ### Moves on a connection -/

namespace MethodCall

/-- Subscribes to a characteristic. -/
def startNotify (path : ObjectPath) : MethodCall :=
  ⟨path, Interface.characteristic, "StartNotify", []⟩

/-- Ends a subscription. -/
def stopNotify (path : ObjectPath) : MethodCall :=
  ⟨path, Interface.characteristic, "StopNotify", []⟩

/-- Starts or stops the notifications of a characteristic. -/
def notify (path : ObjectPath) (start : Bool) : MethodCall :=
  if start then startNotify path else stopNotify path

end MethodCall

namespace Connection

/-- What moves a connection: a peer calls a method, or an application makes a call. -/
inductive Move where
  | peer (c : MethodCall)
  | call (daemon : Daemon) (c : Call)

/-- The connection after a move, and the messages that were sent. -/
def Move.step (k : Connection) : Move → Connection × List Message
  | .peer c => (k.receive c).2
  | .call daemon c => ((k.perform daemon c).connection, (k.perform daemon c).messages)

/-- The connection after some moves, and the messages that were sent. -/
def goThrough (k : Connection) : List Move → Connection × List Message
  | [] => (k, [])
  | m :: moves =>
    (((m.step k).1.goThrough moves).1, (m.step k).2 ++ ((m.step k).1.goThrough moves).2)

/-- A move that withdraws nothing at a path or above it. -/
def Move.Spares (path : ObjectPath) : Move → Prop
  | .call _ (.withdrawObject q _) => ¬ path.IsWithin q
  | _ => True

/-- Whether a move starts or stops the notifications of a characteristic. -/
def Move.subscribes? (path : ObjectPath) : Move → Option Bool
  | .peer c =>
    if c = .startNotify path then some true
    else if c = .stopNotify path then some false
    else none
  | .call _ _ => none

/-- What a message tells of the subscription to a characteristic. -/
def notified? (path : ObjectPath) : Message → Option Value
  | .propertiesChanged q interface changed =>
    if q = path ∧ interface = Interface.characteristic then changed.find? "Notifying" else none
  | _ => none

variable {k k' : Connection} {path q : ObjectPath} {m : Move} {moves more : List Move}
  {o : CharacteristicObject} {c : MethodCall} {daemon : Daemon}

theorem goThrough_append :
    k.goThrough (moves ++ more) =
      (((k.goThrough moves).1.goThrough more).1,
        (k.goThrough moves).2 ++ ((k.goThrough moves).1.goThrough more).2) := by
  induction moves generalizing k with
  | nil => rfl
  | cons m moves ih => simp [goThrough, ih]

/-! ### Objects under their kinds -/

/-- Every object is filed under its kind. -/
def Filed (k : Connection) : Prop :=
  ∀ q kind o, k.objects.object? q kind = some o → o.kind = kind

theorem filed_fresh : fresh.Filed := by
  intro q kind o h
  have hnone : ObjectTree.bare.object? q kind = none := ObjectTree.object?_bare
  rw [fresh, hnone] at h
  cases h

theorem Filed.of_objects (h : k.Filed) (hobjects : k'.objects = k.objects) : k'.Filed := by
  rw [Filed, hobjects]
  exact h

theorem Filed.put {new : Object} (h : k.Filed) (hobjects : k'.objects = k.objects.put path new) :
    k'.Filed := by
  intro q kind o hobject
  rw [hobjects] at hobject
  by_cases hsame : q = path ∧ kind = new.kind
  · obtain ⟨rfl, rfl⟩ := hsame
    rw [ObjectTree.object?_put_self] at hobject
    rw [Option.some.inj hobject]
  · rw [ObjectTree.object?_put_of_ne _ (not_and_or.1 hsame)] at hobject
    exact h q kind o hobject

theorem Filed.modify {f : Object → Object} (h : k.Filed) (hf : ∀ o, (f o).kind = o.kind)
    (hobjects : k'.objects = k.objects.modify path .characteristic f) : k'.Filed := by
  intro q kind o hobject
  rw [hobjects] at hobject
  by_cases hsame : q = path ∧ kind = .characteristic
  · obtain ⟨rfl, rfl⟩ := hsame
    rw [ObjectTree.object?_modify_self] at hobject
    obtain ⟨old, hold, rfl⟩ := Option.map_eq_some_iff.1 hobject
    exact (hf old).trans (h q _ old hold)
  · rw [ObjectTree.object?_modify_of_ne _ _ (not_and_or.1 hsame)] at hobject
    exact h q kind o hobject

/-- **What a call can do to the objects.** -/
theorem perform_objects (k : Connection) (daemon : Daemon) (c : Call) :
    (k.perform daemon c).connection.objects = k.objects ∨
      (∃ path new, c = .exportObject path new ∧ k.objects.object? path new.kind = none ∧
        (k.perform daemon c).connection.objects = k.objects.put path new) ∨
      (∃ path kind, c = .withdrawObject path kind ∧
        (k.perform daemon c).connection.objects = k.objects.remove path kind) ∨
      ∃ path value, c = .updateValue path value ∧
        (k.perform daemon c).connection.objects =
          k.objects.modify path .characteristic (.withValue value) := by
  cases hanswer : (k.perform daemon c).answer with
  | error cause => exact Or.inl (perform_of_failed hanswer).1
  | ok =>
    by_cases hdetached : c.Detached
    · exact Or.inl (perform_of_detached hdetached)
    cases c with
    | exportObject path new =>
      obtain ⟨hfree, hput⟩ := perform_exportObject hanswer
      exact Or.inr (Or.inl ⟨path, new, rfl, hfree, hput⟩)
    | withdrawObject path kind =>
      exact Or.inr (Or.inr (Or.inl ⟨path, kind, rfl, perform_withdrawObject hanswer⟩))
    | updateValue path value =>
      exact Or.inr (Or.inr (Or.inr ⟨path, value, rfl, perform_updateValue hanswer⟩))
    | _ => exact absurd trivial hdetached

theorem Filed.perform (h : k.Filed) (daemon : Daemon) (c : Call) :
    (k.perform daemon c).connection.Filed := by
  rcases k.perform_objects daemon c with hsame | ⟨path, new, -, -, hput⟩ |
    ⟨path, kind, -, hremove⟩ | ⟨path, value, -, hmodify⟩
  · exact h.of_objects hsame
  · exact h.put hput
  · intro q kind' o hobject
    rw [hremove] at hobject
    exact h q kind' o (ObjectTree.object?_of_remove _ hobject).1
  · exact h.modify (fun o => o.kind_withValue value) hmodify

theorem Filed.receive (h : k.Filed) (c : MethodCall) : (k.receive c).2.1.Filed := by
  rcases k.receive_objects c with hsame | ⟨notifying, hmodify⟩
  · exact h.of_objects hsame
  · exact h.modify (fun o => o.kind_withNotifying notifying) hmodify

theorem Filed.step (h : k.Filed) (m : Move) : (m.step k).1.Filed := by
  cases m with
  | peer c => exact h.receive c
  | call daemon c => exact h.perform daemon c

theorem Filed.goThrough (h : k.Filed) (moves : List Move) : (k.goThrough moves).1.Filed := by
  induction moves generalizing k with
  | nil => exact h
  | cons m moves ih => exact ih (h.step m)

/-! ### What a move does to a characteristic -/

/-- A characteristic is exported. -/
def Exports (k : Connection) (path : ObjectPath) (o : CharacteristicObject) : Prop :=
  k.objects.object? path .characteristic = some (.characteristic o)

/-- An application's call says nothing of a subscription. -/
theorem notified?_perform (k : Connection) (daemon : Daemon) (c : Call) :
    (k.perform daemon c).messages.filterMap (notified? path) = [] := by
  rw [List.filterMap_eq_nil_iff]
  intro message hm
  cases c with
  | requestName name =>
    simp only [perform, requestName] at hm
    split at hm
    · cases hm
    · split at hm
      · cases hm
      · cases hm
      · split at hm <;> rw [List.mem_singleton.1 hm] <;> rfl
  | exportObject q new =>
    simp only [perform, exportObject] at hm
    split_ifs at hm
    · cases hm
    · have hsignal := isSignal_announcements message hm
      cases message with
      | interfacesAdded | interfacesRemoved => rfl
      | _ => cases hsignal
  | withdrawObject q kind =>
    simp only [perform, withdrawObject] at hm
    split at hm
    · cases hm
    · split_ifs at hm
      all_goals first
        | (obtain ⟨manager, -, rfl⟩ := List.mem_map.1 hm; rfl)
        | cases hm
  | updateValue q value =>
    simp only [perform, updateValue] at hm
    split_ifs at hm
    · rw [List.mem_singleton.1 hm, notified?]
      split_ifs <;> rfl
    · cases hm
  | publishTree => cases hm
  | announce | retract | registerAdvertisement | unregisterAdvertisement =>
    rw [List.mem_singleton.1 hm]
    rfl

/-- **A call leaves a characteristic exported**, unless it withdraws what is there, and leaves it
its flags and its subscription. -/
theorem Exports.perform {c : Call} (h : k.Exports path o)
    (spares : (Move.call daemon c).Spares path) :
    ∃ o', (k.perform daemon c).connection.Exports path o' ∧
      o'.properties.flags = o.properties.flags ∧ o'.notifying = o.notifying := by
  rcases k.perform_objects daemon c with hsame | ⟨q, new, rfl, hfree, hput⟩ |
    ⟨q, kind, rfl, hremove⟩ | ⟨q, value, rfl, hmodify⟩
  · exact ⟨o, by rw [Exports, hsame]; exact h, rfl, rfl⟩
  · have hne : path ≠ q ∨ ObjectKind.characteristic ≠ new.kind := by
      by_contra hsame
      obtain ⟨rfl, hkind⟩ := not_or.1 hsame |>.imp not_not.1 not_not.1
      rw [← hkind, h] at hfree
      cases hfree
    refine ⟨o, ?_, rfl, rfl⟩
    rw [Exports, hput, ObjectTree.object?_put_of_ne _ hne]
    exact h
  · refine ⟨o, ?_, rfl, rfl⟩
    rw [Exports, hremove, ObjectTree.object?_remove_of_not_isWithin _ spares]
    exact h
  · by_cases hq : path = q
    · subst hq
      refine ⟨{ o with properties := { o.properties with value } }, ?_, rfl, rfl⟩
      rw [Exports, hmodify, ObjectTree.object?_modify_self, h]
      rfl
    · refine ⟨o, ?_, rfl, rfl⟩
      rw [Exports, hmodify, ObjectTree.object?_modify_of_ne _ _ (Or.inl hq)]
      exact h

/-- A node offers a characteristic under the interface of characteristics only. -/
theorem Filed.interface_eq (filed : k.Filed) {objects : Objects}
    (hat : k.objects.at? q = some objects) {interface : String}
    (hfacet : objects.facet? interface = some (.object (.characteristic o))) :
    interface = Interface.characteristic := by
  unfold Objects.facet? at hfacet
  split_ifs at hfacet
  · cases hfacet
  · cases hfacet
  · cases hfacet
  · obtain ⟨_, hfind, hobject⟩ := Option.map_eq_some_iff.1 hfacet
    cases hobject
    obtain ⟨kind, hkind, hfind⟩ := Option.bind_eq_some_iff.1 hfind
    have hfiled := filed q kind _ (by rw [ObjectTree.object?, hat]; exact hfind)
    obtain rfl : ObjectKind.characteristic = kind := hfiled
    have hinterface := List.find?_some hkind
    exact (of_decide_eq_true hinterface).symm

theorem subscription?_eq_some {facet : Facet} {member : String} {start : Bool}
    (h : facet.subscription? member = some (o, start)) :
    facet = .object (.characteristic o) ∧
      member = if start then "StartNotify" else "StopNotify" := by
  unfold Facet.subscription? at h
  split at h
  · split at h <;> cases h <;> exact ⟨rfl, rfl⟩
  · cases h

/-- Subscribing to one characteristic, or ending that, does nothing to another one. -/
theorem Exports.subscribe_other {other : CharacteristicObject} {start : Bool} (h : k.Exports path o)
    (hq : q ≠ path) : (k.subscribe q other start).2.1.Exports path o ∧
      (k.subscribe q other start).2.2.filterMap (notified? path) = [] := by
  unfold subscribe
  split_ifs
  · exact ⟨h, rfl⟩
  · exact ⟨h, rfl⟩
  · refine ⟨?_, ?_⟩
    · exact (ObjectTree.object?_modify_of_ne _ _ (Or.inl hq.symm)).trans h
    · simp [notified?, hq]

/-- **A call that neither starts nor stops the notifications of a characteristic** leaves it as it
is, and nothing is told of its subscription. -/
theorem Exports.receive_other (h : k.Exports path o) (filed : k.Filed)
    (hother : ∀ start, c ≠ .notify path start) :
    (k.receive c).2.1.Exports path o ∧ (k.receive c).2.2.filterMap (notified? path) = [] := by
  have hsame : k.Exports path o ∧ ([] : List Message).filterMap (notified? path) = [] := ⟨h, rfl⟩
  unfold receive
  split
  · exact hsame
  · next objects hat =>
    split
    · exact hsame
    · next facet hfacet =>
      split
      · exact hsame
      · next other start hsub =>
        split_ifs with harguments
        · refine h.subscribe_other fun hpath => hother start ?_
          obtain ⟨rfl, hmember⟩ := subscription?_eq_some hsub
          have hinterface := filed.interface_eq hat hfacet
          obtain ⟨_, interface, member, arguments⟩ := c
          obtain rfl : _ = path := hpath
          cases start <;>
            simp_all [MethodCall.notify, MethodCall.startNotify, MethodCall.stopNotify]
        · exact hsame

/-- **A call that starts or stops the notifications** reaches the characteristic. -/
theorem Exports.receive_notify (h : k.Exports path o) (start : Bool) :
    k.receive (.notify path start) =
      (.reply (k.subscribe path o start).1, (k.subscribe path o start).2) := by
  obtain ⟨objects, hat, hfind⟩ := exists_at? h
  have hfacet : objects.facet? Interface.characteristic = some (.object (.characteristic o)) :=
    (facet?_interface objects .characteristic).trans (congrArg (Option.map Facet.object) hfind)
  cases start
  all_goals
    rw [receive]
    dsimp only [MethodCall.notify, MethodCall.startNotify, MethodCall.stopNotify]
    simp only [Bool.false_eq_true, if_true, if_false]
    rw [hat]
    dsimp only
    rw [hfacet]
    rfl

/-! ### Whether someone has subscribed -/

/-- The subscription after a move, where the flags of the characteristic say whether there can be
one. -/
def Move.next (flags : CharacteristicFlags) (path : ObjectPath) (subscribed : Bool) (m : Move) :
    Bool :=
  match m.subscribes? path with
  | none => subscribed
  | some start => flags.includeNotify && start

/-- Whether someone has subscribed after some moves: the last call that starts or stops the
notifications decides, if the flags of the characteristic allow a subscription at all. -/
def listening (flags : CharacteristicFlags) (path : ObjectPath) (moves : List Move) : Bool :=
  flags.includeNotify && (moves.filterMap (Move.subscribes? path)).getLast?.getD false

/-- What is signalled of a subscription that is in one state before and in another one after. -/
def flip (before after : Bool) : List Value := if after = before then [] else [.bool after]

/-- The values `true`, `false`, `true` and so on. -/
def alternating (n : ℕ) : List Value := (List.range n).map fun i => .bool (i % 2 == 0)

/-- **Changes are signalled in turn.**  Where the state after `n` changes is known by whether `n` is
odd, so is the state after the next change. -/
theorem alternating_append_flip {n : ℕ} {before after : Bool} (h : before = (n % 2 == 1)) :
    ∃ n', alternating n ++ flip before after = alternating n' ∧ after = (n' % 2 == 1) ∧
      (after = before → n' = n) := by
  by_cases hsame : after = before
  · rw [flip, if_pos hsame, List.append_nil]
    exact ⟨n, rfl, hsame.trans h, fun _ => rfl⟩
  · have hturn : after = (n % 2 == 0) ∧ after = ((n + 1) % 2 == 1) := by
      rcases Nat.mod_two_eq_zero_or_one n with hn | hn <;> cases after <;> simp_all [Nat.add_mod]
    refine ⟨n + 1, ?_, hturn.2, fun heq => absurd heq hsame⟩
    rw [flip, if_neg hsame, alternating, alternating, List.range_succ, List.map_append, hturn.1]
    rfl

/-- A characteristic with some flags is exported, and someone has subscribed to it or not. -/
structure Watches (k : Connection) (path : ObjectPath) (flags : CharacteristicFlags)
    (subscribed : Bool) : Prop where
  filed : k.Filed
  exported : ∃ o, k.Exports path o ∧ o.properties.flags = flags ∧ o.notifying = subscribed
  able : subscribed = true → flags.includeNotify = true

variable {flags : CharacteristicFlags} {subscribed : Bool}

theorem listening_concat (flags : CharacteristicFlags) (path : ObjectPath) (moves : List Move)
    (m : Move) :
    listening flags path (moves ++ [m]) = m.next flags path (listening flags path moves) := by
  rw [Move.next, listening, List.filterMap_append]
  cases hm : m.subscribes? path with
  | none => rw [List.filterMap_cons_none hm, List.filterMap_nil, List.append_nil, listening]
  | some start =>
    rw [List.filterMap_cons_some hm, List.filterMap_nil, List.getLast?_concat, Option.getD_some]

/-- A move that starts or stops the notifications is a call of one of these two methods. -/
theorem Move.subscribes?_eq_some {start : Bool} :
    m.subscribes? path = some start ↔ m = .peer (.notify path start) := by
  have hne : MethodCall.stopNotify path ≠ MethodCall.startNotify path := by
    simp [MethodCall.stopNotify, MethodCall.startNotify]
  cases m with
  | call => simp [Move.subscribes?]
  | peer c =>
    rw [Move.subscribes?]
    cases start <;> split_ifs with hstart hstop <;>
      simp_all [MethodCall.notify, Ne.symm hne]

/-- A subscription that the flags do not allow is refused. -/
theorem subscribe_of_refused (h : o.properties.flags.includeNotify = false) :
    ∃ text, k.subscribe path o true = (.error (.notSupported text), k, []) := by
  rw [← CharacteristicFlags.notifiable_eq] at h
  exact ⟨_, if_pos ⟨rfl, h⟩⟩

/-- **A subscription starts or ends**, and is signalled if that changes anything. -/
theorem Exports.subscribe (h : k.Exports path o) {start : Bool}
    (able : start = true → o.properties.flags.includeNotify = true) :
    (k.subscribe path o start).1 = .ok .nothing ∧
      (k.subscribe path o start).2.1.Exports path { o with notifying := start } ∧
      (k.subscribe path o start).2.2.filterMap (notified? path) = flip o.notifying start := by
  have hgranted : ¬ (start = true ∧ o.properties.flags.notifiable = false) := by
    rintro ⟨hstart, hflags⟩
    rw [CharacteristicFlags.notifiable_eq, able hstart] at hflags
    cases hflags
  rw [Connection.subscribe, if_neg hgranted]
  by_cases hsame : o.notifying = start
  · subst hsame
    rw [if_pos rfl, flip, if_pos rfl]
    exact ⟨rfl, h, rfl⟩
  · rw [if_neg hsame, flip, if_neg (Ne.symm hsame)]
    refine ⟨rfl, ?_, ?_⟩
    · rw [Exports, ObjectTree.object?_modify_self, h]
      rfl
    · simp [notified?, FinMap.find?_insert_self]

/-- **A call to start or stop the notifications** leads to the subscription that it asks for, if the
flags allow it. -/
theorem Watches.notify (h : k.Watches path flags subscribed) (start : Bool) :
    (k.receive (.notify path start)).2.1.Watches path flags (flags.includeNotify && start) ∧
      (k.receive (.notify path start)).2.2.filterMap (notified? path) =
        flip subscribed (flags.includeNotify && start) := by
  obtain ⟨filed, ⟨o, hexports, rfl, rfl⟩, able⟩ := h
  have hfiled := filed.receive (.notify path start)
  have able' : (o.properties.flags.includeNotify && start) = true →
      o.properties.flags.includeNotify = true := fun hand => (Bool.and_eq_true_iff.1 hand).1
  rw [hexports.receive_notify] at hfiled ⊢
  by_cases hgranted : start = true → o.properties.flags.includeNotify = true
  · have hand : (o.properties.flags.includeNotify && start) = start := by
      cases start
      · exact Bool.and_false _
      · rw [hgranted rfl, Bool.and_true]
    obtain ⟨-, hafter, hmessages⟩ := hexports.subscribe hgranted
    rw [hand] at able' ⊢
    exact ⟨⟨hfiled, ⟨_, hafter, rfl, rfl⟩, able'⟩, hmessages⟩
  · -- the call is refused, and nobody had subscribed before
    obtain ⟨rfl, hflags⟩ := Classical.not_imp.1 hgranted
    have hflags := Bool.eq_false_iff.2 hflags
    have hidle : o.notifying = false := Bool.eq_false_iff.2 fun hon => by
      rw [able hon] at hflags
      cases hflags
    obtain ⟨text, hrefused⟩ := subscribe_of_refused hflags
    rw [hrefused] at hfiled ⊢
    rw [hflags, Bool.false_and, flip, if_pos hidle.symm]
    exact ⟨⟨hfiled, ⟨o, hexports, rfl, hidle⟩, nofun⟩, rfl⟩

/-- **One move** changes the subscription if it starts or stops the notifications, and in no other
way; a change is signalled with the new value, and nothing else is. -/
theorem Watches.step (h : k.Watches path flags subscribed) (spares : m.Spares path) :
    (m.step k).1.Watches path flags (m.next flags path subscribed) ∧
      (m.step k).2.filterMap (notified? path) =
        flip subscribed (m.next flags path subscribed) := by
  cases hm : m.subscribes? path with
  | some start =>
    obtain rfl := Move.subscribes?_eq_some.1 hm
    rw [Move.next, hm]
    exact h.notify start
  | none =>
    rw [Move.next, hm, flip, if_pos rfl]
    obtain ⟨filed, ⟨o, hexports, rfl, rfl⟩, able⟩ := h
    have hfiled := filed.step m
    cases m with
    | peer c =>
      have hother : ∀ start, c ≠ .notify path start := by
        rintro start rfl
        rw [Move.subscribes?_eq_some.2 rfl] at hm
        cases hm
      obtain ⟨hafter, hmessages⟩ := hexports.receive_other filed hother
      exact ⟨⟨hfiled, ⟨o, hafter, rfl, rfl⟩, able⟩, hmessages⟩
    | call daemon c =>
      obtain ⟨o', hafter, hflags, hnotifying⟩ := hexports.perform spares
      exact ⟨⟨hfiled, ⟨o', hafter, hflags, hnotifying⟩, able⟩, notified?_perform k daemon c⟩

/-- **A run of moves.**  The last call that starts or stops the notifications decides on the
subscription, and the changes are signalled in turn. -/
theorem Watches.goThrough (h : k.Watches path flags false)
    (spares : ∀ m ∈ moves, m.Spares path) :
    (k.goThrough moves).1.Watches path flags (listening flags path moves) ∧
      ∃ n, (k.goThrough moves).2.filterMap (notified? path) = alternating n ∧
        listening flags path moves = (n % 2 == 1) ∧ (flags.includeNotify = false → n = 0) := by
  induction moves using List.reverseRecOn with
  | nil =>
    have hnobody : listening flags path [] = false := Bool.and_false _
    rw [hnobody]
    exact ⟨h, 0, rfl, rfl, fun _ => rfl⟩
  | append_singleton moves m ih =>
    obtain ⟨hmoves, hlast⟩ := List.forall_mem_append.1 spares
    obtain ⟨hwatches, n, hsignals, hparity, hsilent⟩ := ih hmoves
    obtain ⟨hnext, hsignal⟩ := hwatches.step (hlast m List.mem_cons_self)
    rw [← listening_concat] at hnext hsignal
    rw [goThrough_append]
    dsimp only [Connection.goThrough]
    rw [List.append_nil, List.filterMap_append, hsignals, hsignal]
    obtain ⟨n', halternating, hparity', hsame⟩ := alternating_append_flip hparity
    refine ⟨hnext, n', halternating, hparity', fun hflags => ?_⟩
    rw [hsame, hsilent hflags]
    rw [listening, listening, hflags, Bool.false_and, Bool.false_and]

/-! ### What peers learn of a subscription -/

/-- What peers learn of the subscription to a characteristic after some moves.  Asked for, it is
what the last call decided.  Where the flags allow a subscription, it can start and end at any
time; otherwise starting one is refused, and nothing is ever signalled of it.  A further move is
followed by a signal if it changes the subscription, with the new value, and so far the signals
have been `true`, `false`, `true` and so on. -/
structure Follows (k : Connection) (path : ObjectPath) (flags : CharacteristicFlags)
    (moves : List Move) : Prop where
  property : ((k.goThrough moves).1.receive
      (.get path Interface.characteristic "Notifying")).1 =
    .reply (.ok (.value (.variant (.bool (listening flags path moves)))))
  start : flags.includeNotify = true →
    ((k.goThrough moves).1.receive (.startNotify path)).1 = .reply (.ok .nothing)
  refusal : flags.includeNotify = false →
    ∃ e, ((k.goThrough moves).1.receive (.startNotify path)).1 = .reply (.error e) ∧
      e.name = "org.bluez.Error.NotSupported"
  stop : ((k.goThrough moves).1.receive (.stopNotify path)).1 = .reply (.ok .nothing)
  flips : ∀ m : Move, m.Spares path →
    (m.step (k.goThrough moves).1).2.filterMap (notified? path) =
      flip (listening flags path moves) (listening flags path (moves ++ [m]))
  turns : ∃ n, (k.goThrough moves).2.filterMap (notified? path) = alternating n
  silent : flags.includeNotify = false →
    listening flags path moves = false ∧ (k.goThrough moves).2.filterMap (notified? path) = []

/-- **A characteristic that nobody has subscribed to** tells whatever happens from then on. -/
theorem Watches.follows (h : k.Watches path flags false) (spares : ∀ m ∈ moves, m.Spares path) :
    k.Follows path flags moves := by
  obtain ⟨hwatches, n, hsignals, -, hsilent⟩ := h.goThrough spares
  obtain ⟨-, ⟨o, hexports, hflags, hnotifying⟩, -⟩ := id hwatches
  refine ⟨?_, fun able => ?_, fun unable => ?_, ?_, fun m hm => ?_, ⟨n, hsignals⟩, fun unable => ?_⟩
  · refine receive_get hexports ?_
    rw [← hnotifying]
    rfl
  · have hstart := hexports.receive_notify true
    rw [MethodCall.notify, if_pos rfl] at hstart
    rw [hstart, (hexports.subscribe fun _ => hflags ▸ able).1]
  · have hstart := hexports.receive_notify true
    rw [MethodCall.notify, if_pos rfl] at hstart
    obtain ⟨text, hrefused⟩ := subscribe_of_refused (hflags ▸ unable)
    rw [hstart, hrefused]
    exact ⟨_, rfl, rfl⟩
  · have hstop := hexports.receive_notify false
    rw [MethodCall.notify, if_neg Bool.false_ne_true] at hstop
    rw [hstop, (hexports.subscribe fun hon => absurd hon Bool.false_ne_true).1]
  · rw [listening_concat]
    exact (hwatches.step hm).2
  · rw [hsignals, hsilent unable, listening, unable]
    exact ⟨rfl, rfl⟩

/-- **Exporting the node of a characteristic** makes one that nobody has subscribed to. -/
theorem Filed.watches_of_exported (filed : k.Filed) {id : AppId} {s : Service} {c : Characteristic}
    (done : (k.perform daemon ((Node.characteristic s c).exported id)).answer = .ok ()) :
    (k.perform daemon ((Node.characteristic s c).exported id)).connection.Watches c.path
      c.properties.flags false := by
  obtain ⟨-, hput⟩ := perform_exportObject done
  have hexports := ObjectTree.object?_put_self k.objects (Node.characteristic s c).path
    ((Node.characteristic s c).object id)
  rw [← hput] at hexports
  exact ⟨filed.perform _ _, ⟨_, hexports, rfl, rfl⟩, nofun⟩

/-! ### Exchanges as moves -/

section Carrying

variable {σ : Type} {peers : MethodCall → Prop} {e : Exchange σ} {t : List (Exchange σ)}

/-- A move that is among those of exchanges and peers. -/
def Move.Among (peers : MethodCall → Prop) (t : List (Exchange σ)) : Move → Prop
  | .peer c => peers c
  | .call _ c => ∃ e ∈ t, e.call = c

/-- A call that leaves an object alone withdraws nothing at its path or above it. -/
theorem Move.spares_of_call {c : Call} {kind : ObjectKind} (h : c.Spares path kind) :
    (call daemon c).Spares path := by
  cases c with
  | withdrawObject => exact h
  | _ => trivial

/-- **Carrying exchanges out is going through moves.** -/
theorem Carries.exists_goThrough (h : Carries peers k t k') :
    ∃ moves : List Move, (k.goThrough moves).1 = k' ∧ ∀ m ∈ moves, m.Among peers t := by
  induction h with
  | nil => exact ⟨[], rfl, fun m hm => absurd hm List.not_mem_nil⟩
  | @call k k' e t daemon done succeeded rest ih =>
    obtain ⟨moves, hmoves, hamong⟩ := ih
    refine ⟨.call daemon e.call :: moves, hmoves, List.forall_mem_cons.2 ⟨?_, fun m hm => ?_⟩⟩
    · exact ⟨e, List.mem_cons_self, rfl⟩
    · cases m with
      | peer c => exact hamong _ hm
      | call daemon c =>
        obtain ⟨f, hf, hcall⟩ := hamong _ hm
        exact ⟨f, List.mem_cons_of_mem _ hf, hcall⟩
  | peer c called rest ih =>
    obtain ⟨moves, hmoves, hamong⟩ := ih
    exact ⟨.peer c :: moves, hmoves, List.forall_mem_cons.2 ⟨called, hamong⟩⟩

/-- The first exchange is carried out after some calls of peers. -/
theorem Carries.cons (h : Carries peers k (e :: t) k') :
    ∃ k₀ daemon, Carries peers k ([] : List (Exchange σ)) k₀ ∧
      (k₀.perform daemon e.call).answer = .ok () ∧
      Carries peers (k₀.perform daemon e.call).connection t k' := by
  generalize hw : e :: t = w at h
  induction h with
  | nil => cases hw
  | @call k k' f w daemon done succeeded rest ih =>
    obtain ⟨rfl, rfl⟩ := List.cons.inj hw
    exact ⟨k, daemon, .nil, done, rest⟩
  | peer c called rest ih =>
    obtain ⟨k₀, daemon, hpeers, done, hrest⟩ := ih hw
    exact ⟨k₀, daemon, .peer c called hpeers, done, hrest⟩

theorem Filed.carried (h : k.Filed) (carried : Carries peers k t k') : k'.Filed := by
  obtain ⟨moves, rfl, -⟩ := carried.exists_goThrough
  exact h.goThrough moves

/-- **Nobody subscribes** while peers make no such call. -/
theorem Watches.carried (h : k.Watches path flags false) (carried : Carries peers k t k')
    (quiet : ∀ c, peers c → c ≠ .startNotify path)
    (spares : ∀ e ∈ t, e.call.Spares path .characteristic) :
    k'.Watches path flags false := by
  obtain ⟨moves, rfl, hamong⟩ := carried.exists_goThrough
  have hspares : ∀ m ∈ moves, m.Spares path := by
    intro m hm
    cases m with
    | peer c => trivial
    | call daemon c =>
      obtain ⟨e, he, rfl⟩ := hamong _ hm
      exact Move.spares_of_call (spares e he)
  have hnobody : listening flags path moves = false := by
    refine Bool.and_eq_false_iff.2 (Or.inr ?_)
    cases hlast : (moves.filterMap (Move.subscribes? path)).getLast? with
    | none => rfl
    | some start =>
      obtain ⟨m, hm, hsubscribes⟩ := List.mem_filterMap.1 (List.mem_of_getLast? hlast)
      obtain rfl := Move.subscribes?_eq_some.1 hsubscribes
      cases start with
      | false => rfl
      | true => exact absurd rfl (quiet _ (hamong _ hm))
  exact hnobody ▸ (h.goThrough hspares).1

/-- **A characteristic of a service that is added** is exported, and nobody has subscribed to it. -/
theorem Filed.watches_of_addition {app app' : Application} {s : Service} {c : Characteristic}
    {t : List (Exchange Application)} (filed : k.Filed)
    (course : Application.Addition app s t (.ok ()) app') (carried : Carries peers k t k')
    (quiet : ∀ c, peers c → c ≠ .startNotify path) (hc : c ∈ s.characteristics)
    (hpath : c.path = path) : k'.Watches path c.properties.flags false := by
  subst hpath
  have hnode : Node.characteristic s c ∈ s.nodes :=
    Service.mem_nodes.2 (Or.inr ⟨c, hc, Or.inl rfl⟩)
  have hspares := course.spares_objects
  obtain ⟨before, after, rfl⟩ := course.exports hnode
  obtain ⟨k₁, hbefore, hrest⟩ := carried.split
  obtain ⟨k₂, daemon, hpeers, done, hafter⟩ := hrest.cons
  have hexported := ((filed.carried hbefore).carried hpeers).watches_of_exported done
  exact hexported.carried hafter quiet fun e he =>
    hspares e (List.mem_append_right _ (List.mem_cons_of_mem _ he)) _ _

end Carrying

/-- **Subscriptions follow the last call**, whatever else happens on a connection.  Once the node of
a characteristic is exported, peers start and end a subscription to it, read and write its value,
applications replace the value and make all sorts of other calls, with or without success, but
withdraw nothing at its path or above it.  Then the subscription, the answers to the calls about
it and the signals of it are as the last such call and the flags of the characteristic say.  The
same is true of every characteristic of a service that has been added, however often the service
had been added, subscribed to and removed before: at first nobody has subscribed. -/
theorem notifying_follows (past : List Move) :
    let k := (fresh.goThrough past).1
    (∀ daemon id s c,
      (k.perform daemon ((Node.characteristic s c).exported id)).answer = .ok () →
      ∀ moves : List Move, (∀ m ∈ moves, m.Spares c.path) →
        (k.perform daemon ((Node.characteristic s c).exported id)).connection.Follows c.path
          c.properties.flags moves) ∧
    ∀ (app app' : Application) s t peers k',
      app.Performs (Application.addService s) t (.ok ()) app' →
      Carries peers k t k' → ∀ c ∈ s.characteristics,
      (∀ call, peers call → call ≠ .startNotify c.path) →
      ∀ moves : List Move, (∀ m ∈ moves, m.Spares c.path) →
        k'.Follows c.path c.properties.flags moves := by
  have filed := filed_fresh.goThrough past
  refine ⟨fun daemon id s c done moves spares => ?_, ?_⟩
  · exact (filed.watches_of_exported done).follows spares
  · intro app app' s t peers k' performs carried c hc quiet moves spares
    have course := Application.performs_addService performs
    exact (filed.watches_of_addition course carried quiet hc rfl).follows spares

end Connection

/-! ### A sample -/

namespace Sample

/-- The call that exports the characteristic that clients can subscribe to. -/
def rateExport : Call := (Node.characteristic pulse rate).exported 0

/-- A client subscribes to it, the value is replaced, and the subscription ends. -/
def listened : List Connection.Move :=
  [.peer (.startNotify rate.path), .call {} (.updateValue rate.path [61]),
    .peer (.stopNotify rate.path)]

/-- Its service is added and subscribed to, and is removed. -/
def dropped : List (Act ⊕ MethodCall) :=
  [.inl .run, .inl (.add pulse), .inr (.startNotify rate.path), .inl (.remove pulse)]

theorem spares_listened : ∀ m ∈ listened, m.Spares rate.path := by
  intro m hm
  simp only [listened, List.mem_cons, List.not_mem_nil, or_false] at hm
  rcases hm with rfl | rfl | rfl <;> trivial

end Sample

namespace Connection

/-- The hypotheses are satisfiable, on a fresh connection and on that of a host: there, the service
is added again after it was subscribed to and removed. -/
theorem notifying_follows_rate :
    (fresh.perform {} Sample.rateExport).connection.Follows Sample.rate.path
      Sample.rate.properties.flags Sample.listened ∧
    let h := (Sample.begun.attend 0 0 Sample.dropped).2
    ∃ h' events k app,
      h.operate 0 (Application.addService Sample.pulse) = some (.ok (), h', events) ∧
        h'.Serves 0 k app ∧
          k.Follows Sample.rate.path Sample.rate.properties.flags Sample.listened := by
  constructor
  · exact (notifying_follows []).1 {} 0 Sample.pulse Sample.rate (by decide) Sample.listened
      Sample.spares_listened
  intro h
  have hsucceeded : ∀ e ∈ (Sample.begun.attend 0 0 Sample.dropped).1, e.Succeeded := by
    decide +kernel
  have hagain : ∀ e ∈ h.exchanges 0 (Application.addService Sample.pulse), e.Succeeded := by
    decide +kernel
  have hok : (h.operate 0 (Application.addService Sample.pulse)).map (·.1.isOk) = some true := by
    decide +kernel
  obtain ⟨app, k, history, carried, serves⟩ := Sample.serves_begun.attend Sample.dropped hsucceeded
  have hid : app.id = 0 := history.id
  obtain ⟨past, rfl, -⟩ := carried.exists_goThrough
  obtain ⟨⟨r, h', events⟩, hdone, hr⟩ := Option.map_eq_some_iff.1 hok
  cases r with
  | error e => cases hr
  | ok =>
    rw [← hid] at hdone hagain
    obtain ⟨app', k', performs, hcarries, hserves⟩ := serves.operate hdone
    have hid' := Application.performs_id (a := .add Sample.pulse) performs
    refine ⟨h', events, k', app', hid ▸ hdone, hserves hid', ?_⟩
    exact (notifying_follows past).2 app app' Sample.pulse _ nobody k' performs (hcarries hagain)
      Sample.rate List.mem_cons_self (fun _ hcall => hcall.elim) Sample.listened
      Sample.spares_listened

end Connection
end GattServer
