/-
# What object managers tell

An application tells of its nodes through its object manager: it asks for a signal for each node
that enters its directory or leaves it.  The connection tells as well, on its own, of every object
that is exported or withdrawn below an object manager.  So while the object manager is exported, a
node that is added without a failing call is announced twice, first by the connection and then by
the application; a node that is exported in vain is announced by the connection and retracted again;
and a node that is removed is retracted twice (`Application.signals_sent`).
-/

import GattServer.Proofs.Alone
import GattServer.Proofs.Undo

namespace GattServer

/-! ### Signals about a node -/

theorem flatMap_ite {α β : Type} (p : α → Bool) (f : α → β) (xs : List α) :
    (xs.flatMap fun x => if p x then [f x] else []) = (xs.filter p).map f := by
  induction xs with
  | nil => rfl
  | cons x xs ih => cases hx : p x <;> simp [hx, ih]

namespace Message

/-- A message announces an object. -/
def announces (q : ObjectPath) : Message → Bool
  | .interfacesAdded _ path _ => path = q
  | _ => false

/-- A message retracts an object. -/
def retracts (q : ObjectPath) : Message → Bool
  | .interfacesRemoved _ path _ => path = q
  | _ => false

theorem isSignal_of_announces {q : ObjectPath} (m : Message) (h : m.announces q = true) :
    m.isSignal = true := by
  cases m with
  | interfacesAdded | interfacesRemoved => rfl
  | _ => cases h

theorem isSignal_of_retracts {q : ObjectPath} (m : Message) (h : m.retracts q = true) :
    m.isSignal = true := by
  cases m with
  | interfacesAdded | interfacesRemoved => rfl
  | _ => cases h

end Message

namespace Node

/-- The signal by which an application announces a node: the object manager tells all that is
listed of it. -/
def added (root : ObjectPath) (n : Node) : Message := .interfacesAdded root n.path n.interfaces

/-- The signal by which a connection announces a node that is exported: the object manager tells
what the object shows. -/
def echoed (root : ObjectPath) (id : AppId) (n : Node) : Message :=
  .interfacesAdded root n.path
    ((∅ : InterfaceMap).insert n.kind.interface (n.object id).properties)

/-- The signal by which an application retracts a node that was listed. -/
def removed (root : ObjectPath) (n : Node) (interfaces : InterfaceMap) : Message :=
  .interfacesRemoved root n.path interfaces.keys

/-- The signal by which a connection retracts a node that is withdrawn. -/
def dropped (root : ObjectPath) (n : Node) : Message :=
  .interfacesRemoved root n.path [n.kind.interface]

/-- The nodes that an object manager at `root`, if there is one, tells of without being asked. -/
def overheard (managed : Bool) (root : ObjectPath) (nodes : List Node) : List Node :=
  nodes.filter fun n => overhears managed root n.path

variable {managed : Bool} {root : ObjectPath} {n : Node} {nodes : List Node}

theorem tells_exported (id : AppId) : (n.exported id).tells managed root =
    if overhears managed root n.path then [n.echoed root id] else [] := by
  cases n <;> rfl

theorem tells_withdrawn : n.withdrawn.tells managed root =
    if overhears managed root n.path then [n.dropped root] else [] := rfl

/-- Among nodes of different paths, the path of one of them is found once. -/
theorem countP_path (distinct : (nodes.map Node.path).Nodup) (hn : n ∈ nodes) :
    nodes.countP (fun m => m.path = n.path) = 1 := by
  have hcount := List.count_eq_one_of_mem distinct (List.mem_map_of_mem hn)
  rw [List.count_eq_countP, List.countP_map] at hcount
  rw [← hcount]
  exact List.countP_congr fun m _ => by simp

theorem countP_filter_path (distinct : (nodes.map Node.path).Nodup) (hn : n ∈ nodes)
    (p : ObjectPath → Bool) : (nodes.filter fun m => p m.path).countP (fun m => m.path = n.path) =
      if p n.path then 1 else 0 := by
  rw [List.countP_filter]
  cases hp : p n.path with
  | true =>
    rw [if_pos rfl, ← countP_path distinct hn]
    refine List.countP_congr fun m _ => ?_
    simp only [Bool.and_eq_true, decide_eq_true_eq, and_iff_left_iff_imp]
    exact fun hpath => hpath ▸ hp
  | false =>
    rw [if_neg Bool.false_ne_true, List.countP_eq_zero]
    intro m _ hm
    obtain ⟨hpath, hpm⟩ := Bool.and_eq_true_iff.1 hm
    rw [of_decide_eq_true hpath, hp] at hpm
    cases hpm

theorem countP_removed (nodes : List Node) (q : ObjectPath)
    (listed : ObjectPath → Option InterfaceMap) :
    (nodes.filterMap fun m => (listed m.path).map (m.removed root)).countP (Message.retracts q) =
      (nodes.filter fun m => (listed m.path).isSome).countP (fun m => m.path = q) := by
  rw [List.countP_filterMap, List.countP_filter]
  refine List.countP_congr fun m _ => ?_
  cases listed m.path <;> simp [removed, Message.retracts]

end Node

/-- A message announces what is below an object manager on the way to advertisements. -/
def Message.OnTheWay (root : ObjectPath) (m : Message) : Prop :=
  ∃ path interfaces, m = .interfacesAdded root path interfaces ∧ path.IsBelow root ∧
    advertisementPath.IsWithin path

/-- **An object manager that is exported announces what is below it**, and that is nothing but what
is on the way to advertisements if there is nothing else. -/
theorem Connection.onTheWay_of_exported {root : ObjectPath} {k : Connection} {daemon : Daemon}
    {o : Object} (clear : k.objects.Clear root) (hkind : o.kind = .objectManager)
    (done : (k.perform daemon (.exportObject root o)).answer = .ok ()) :
    (k.perform daemon (.exportObject root o)).connection.objects.Clear root ∧
      ∀ m ∈ signalsOf (k.perform daemon (.exportObject root o)).messages, m.OnTheWay root := by
  constructor
  · rw [(perform_exportObject done).2]
    intro q hq hbelow
    rcases ObjectTree.at?_put hq with hold | habove
    · exact clear q hold hbelow
    · exact absurd (hbelow.1.antisymm habove) hbelow.2
  · intro m hm
    rw [messages_exportObject done, signalsOf_eq_self isSignal_announcements, announcements,
      if_pos hkind] at hm
    obtain ⟨⟨path, objects⟩, hbelow, rfl⟩ := List.mem_map.1 hm
    obtain ⟨hmem, hpath⟩ := List.mem_filter.1 (List.mem_mergeSort.1 hbelow)
    have hnode : (k.objects.at? path).isSome :=
      FinMap.mem_keys_iff.1 (List.mem_map_of_mem (f := Prod.fst) hmem)
    exact ⟨path, _, rfl, of_decide_eq_true hpath, clear path hnode (of_decide_eq_true hpath)⟩

namespace Application

open Connection (Conveys)

variable {id : AppId} {profile : Profile} {app app' : Application} {a : Act} {acts : List Act}
  {s : Service} {t u : List (Exchange Application)} {r : Answer} {roots : ObjectPath → Prop}
  {root q : ObjectPath} {k k' : Connection} {ms ns : List Message} {nodes : List Node}
  {managed : Bool}

/-! ### Signals of the loops -/

theorem succeeded_exporting : ∀ e ∈ app.exporting nodes, e.Succeeded := by
  intro e he
  obtain ⟨n, -, rfl⟩ := mem_exporting he
  rfl

theorem tells_exporting : (app.exporting nodes).flatMap (Exchange.tells managed root) =
    (Node.overheard managed root nodes).map (Node.echoed root app.id) := by
  rw [Exchange.flatMap_tells succeeded_exporting, calls_exporting, List.flatMap_map,
    Node.overheard, ← flatMap_ite]
  exact List.flatMap_congr fun n _ => Node.tells_exported app.id

theorem tells_withdrawing : (app.withdrawing nodes).flatMap (Exchange.tells managed root) =
    (Node.overheard managed root nodes).map (Node.dropped root) := by
  have succeeded : ∀ e ∈ app.withdrawing nodes, e.Succeeded := by
    intro e he
    obtain ⟨n, -, rfl⟩ := mem_withdrawing he
    rfl
  rw [Exchange.flatMap_tells succeeded, calls_withdrawing, List.flatMap_map,
    Node.overheard, ← flatMap_ite]
  rfl

theorem tells_announcing : (app.announcing nodes).flatMap (Exchange.tells managed root) =
    nodes.map (Node.added app.path) := by
  have succeeded : ∀ e ∈ app.announcing nodes, e.Succeeded := by
    intro e he
    obtain ⟨before, n, after, -, rfl⟩ := mem_announcing he
    rfl
  rw [Exchange.flatMap_tells succeeded, calls_announcing, List.flatMap_map, List.map_eq_flatMap]
  rfl

theorem tells_retracting (distinct : (nodes.map Node.path).Nodup) :
    (app.retracting nodes).flatMap (Exchange.tells managed root) = nodes.filterMap fun n =>
      (app.directory.find? n.path).map (n.removed app.path) := by
  have succeeded : ∀ e ∈ app.retracting nodes, e.Succeeded := by
    intro e he
    obtain ⟨before, n, after, interfaces, -, rfl⟩ := mem_retracting he
    rfl
  rw [Exchange.flatMap_tells succeeded, calls_retracting distinct, List.filterMap_eq_flatMap_toList,
    List.filterMap_eq_flatMap_toList, List.flatMap_assoc]
  refine List.flatMap_congr fun n _ => ?_
  cases app.directory.find? n.path <;> rfl

/-- Of withdrawals whose answers are left open, those that succeed are told. -/
theorem tells_withdrawals {back : List (Exchange Application)}
    (withdrawals : back.map Exchange.question = nodes.map fun n => (app, n.withdrawn)) :
    ∃ taken : List Node, taken.Sublist nodes ∧ back.flatMap (Exchange.tells managed root) =
      (Node.overheard managed root taken).map (Node.dropped root) := by
  induction nodes generalizing back with
  | nil =>
    obtain rfl := List.map_eq_nil_iff.1 withdrawals
    exact ⟨[], .slnil, rfl⟩
  | cons n nodes ih =>
    obtain ⟨e, back, rfl, hquestion, hback⟩ := List.map_eq_cons_iff.1 withdrawals
    obtain ⟨taken, hsublist, htold⟩ := ih hback
    have hcall : e.call = n.withdrawn := congrArg Prod.snd hquestion
    rw [List.flatMap_cons, htold]
    by_cases succeeded : e.Succeeded
    · refine ⟨n :: taken, hsublist.cons_cons n, ?_⟩
      rw [Exchange.tells, if_pos succeeded, hcall, Node.tells_withdrawn, Node.overheard,
        Node.overheard, List.filter_cons]
      split_ifs <;> rfl
    · refine ⟨taken, hsublist.cons n, ?_⟩
      rw [Exchange.tells, if_neg succeeded, List.nil_append]

/-! ### What is sent during an act -/

/-- **What is sent when a service is added**, where `managed` tells whether the object manager of
the application is exported. -/
structure SentByAddition (managed : Bool) (app : Application) (s : Service)
    (t : List (Exchange Application)) (r : Answer) (app' : Application) (ms : List Message) :
    Prop where
  /-- A service that is refused is not told of. -/
  refused : ¬ app.Welcomes s → signalsOf ms = []
  /-- If an export fails, the connection has announced the nodes before, and it retracts those of
  them that can be withdrawn.  The application tells nothing. -/
  undone : ∀ e ∈ t, e.call.kind = .exportObject → ¬ e.Succeeded →
    ∃ (done rest taken : List Node) (n : Node),
      s.nodes = done ++ n :: rest ∧ taken.Sublist done.reverse ∧ signalsOf ms =
        (Node.overheard managed app.path done).map (Node.echoed app.path app.id) ++
          (Node.overheard managed app.path taken).map (Node.dropped app.path)
  /-- If the service is added, the connection announces the nodes that the object manager overhears,
  and then the application announces all of them, parents first. -/
  completed : r = .ok () → signalsOf ms =
    (Node.overheard managed app.path s.nodes).map (Node.echoed app.path app.id) ++
      s.nodes.map (Node.added app.path)
  /-- The application announces a node with its entry in the directory. -/
  entry : r = .ok () → ∀ n ∈ s.nodes, app'.directory.find? n.path = some n.interfaces
  /-- So a node that the object manager overhears is announced twice. -/
  times : r = .ok () → ∀ n ∈ s.nodes, ms.countP (Message.announces n.path) =
    if overhears managed app.path n.path then 2 else 1

/-- **What is sent when a service is removed.** -/
structure SentByRemoval (managed : Bool) (app : Application) (s : Service)
    (t : List (Exchange Application)) (ms : List Message) : Prop where
  /-- A service that is not live is not told of. -/
  absent : app.service? s.path = none → signalsOf ms = []
  /-- If no call fails, the application retracts the nodes that were listed, and then the connection
  retracts all that the object manager overhears, children first both times. -/
  withdrawn : ∀ live, app.service? s.path = some live → (∀ e ∈ t, e.Succeeded) → signalsOf ms =
    (live.nodes.reverse.filterMap fun n =>
      (app.directory.find? n.path).map (n.removed app.path)) ++
      (Node.overheard managed app.path live.nodes.reverse).map (Node.dropped app.path)
  /-- So a node that was listed and that the object manager overhears is retracted twice. -/
  times : ∀ live, app.service? s.path = some live → (∀ e ∈ t, e.Succeeded) → ∀ n ∈ live.nodes,
    ms.countP (Message.retracts n.path) =
      (if (app.directory.find? n.path).isSome then 1 else 0) +
        if overhears managed app.path n.path then 1 else 0

/-- **What is sent during an act**, as far as it comes from an object manager. -/
def Sent (managed : Bool) (app : Application) (t : List (Exchange Application)) (r : Answer)
    (app' : Application) (ms : List Message) : Act → Prop
  | .run => ∀ m ∈ signalsOf ms, m.OnTheWay app.path
  | .create _ _ | .update _ _ => signalsOf ms = []
  | .add s => SentByAddition managed app s t r app' ms
  | .remove s => SentByRemoval managed app s t ms
  | .start _ => signalsOf ms = [] ∨ overhears managed app.path advertisementPath = true ∧
      ∃ interfaces, signalsOf ms = [.interfacesAdded app.path advertisementPath interfaces]
  | .stop => signalsOf ms = [] ∨ overhears managed app.path advertisementPath = true ∧
      ∃ names, signalsOf ms = [.interfacesRemoved app.path advertisementPath names]

theorem Addition.eq_nil_of_not_welcomes (course : Addition app s t r app')
    (unwelcome : ¬ app.Welcomes s) : t = [] := by
  cases course with
  | refused => rfl
  | rolledBack welcome | unpublished welcome | unannounced welcome | completed welcome =>
    exact absurd welcome unwelcome

theorem Addition.rolledBack_of_failed (course : Addition app s t r app') {e : Exchange Application}
    (he : e ∈ t) (hkind : e.call.kind = .exportObject) (failed : ¬ e.Succeeded) :
    ∃ done n rest cause back, s.nodes = done ++ n :: rest ∧
      back.map Exchange.question = (done.reverse.map fun m => (app, m.withdrawn)) ∧
      t = app.exporting done ++ ⟨app, n.exported app.id, .error cause⟩ :: back := by
  have hannounced {nodes : List Node} (h : e ∈ (app.adopt s).announcing nodes) :
      e.call.kind ≠ .exportObject := by
    obtain ⟨before, n, after, -, rfl⟩ := mem_announcing h
    exact nofun
  cases course with
  | refused => cases he
  | rolledBack welcome nodes withdrawals => exact ⟨_, _, _, _, _, nodes, withdrawals, rfl⟩
  | unpublished =>
    rcases List.mem_append.1 he with h | h
    · exact absurd (succeeded_exporting e h) failed
    · rw [List.mem_singleton.1 h] at hkind
      cases hkind
  | unannounced =>
    rcases List.mem_append.1 he with h | h
    · exact absurd (succeeded_exporting e h) failed
    rcases List.mem_cons.1 h with rfl | h
    · cases hkind
    rcases List.mem_append.1 h with h | h
    · exact absurd hkind (hannounced h)
    · rw [List.mem_singleton.1 h] at hkind
      cases hkind
  | completed =>
    rcases List.mem_append.1 he with h | h
    · exact absurd (succeeded_exporting e h) failed
    rcases List.mem_cons.1 h with rfl | h
    · cases hkind
    · exact absurd hkind (hannounced h)

theorem Addition.sent (course : Addition app s t r app') (hs : s.Rooted root)
    (signals : signalsOf ms = t.flatMap (Exchange.tells managed app.path)) :
    SentByAddition managed app s t r app' ms := by
  have hcompleted (hr : r = .ok ()) : signalsOf ms =
      (Node.overheard managed app.path s.nodes).map (Node.echoed app.path app.id) ++
        s.nodes.map (Node.added app.path) := by
    cases course with
    | completed welcome =>
      rw [signals, List.flatMap_append, List.flatMap_cons, tells_exporting, tells_announcing]
      rfl
    | _ => cases hr
  refine ⟨fun unwelcome => ?_, fun e he hkind failed => ?_, hcompleted, fun hr n hn => ?_,
    fun hr n hn => ?_⟩
  · rw [signals, course.eq_nil_of_not_welcomes unwelcome]
    rfl
  · obtain ⟨done, n, rest, cause, back, hnodes, withdrawals, rfl⟩ :=
      course.rolledBack_of_failed he hkind failed
    obtain ⟨taken, hsublist, htold⟩ := tells_withdrawals withdrawals
    refine ⟨done, rest, taken, n, hnodes, hsublist, ?_⟩
    rw [signals, List.flatMap_append, List.flatMap_cons, tells_exporting, htold]
    rfl
  · cases course with
    | completed welcome => exact find?_enter_of_mem hs.nodup_paths hn
    | _ => cases hr
  · rw [← countP_signalsOf Message.isSignal_of_announces, hcompleted hr,
      List.countP_append, List.countP_map, List.countP_map]
    -- once by the connection, if the node is overheard, and once by the application
    have hechoed := Node.countP_filter_path hs.nodup_paths hn (overhears managed app.path)
    have hadded := Node.countP_path hs.nodup_paths hn
    calc _ = (if overhears managed app.path n.path then 1 else 0) + 1 :=
          congrArg₂ (· + ·) hechoed hadded
      _ = _ := by split_ifs <;> rfl

theorem Removal.sent (course : Removal app s t r app') (tidy : app.Tidy roots)
    (signals : signalsOf ms = t.flatMap (Exchange.tells managed app.path)) :
    SentByRemoval managed app s t ms := by
  have hdistinct {live : Service} (found : app.service? s.path = some live) :
      (live.nodes.reverse.map Node.path).Nodup := by
    obtain ⟨q, -, hrooted⟩ := tidy.rooted live (mem_of_service? found).1
    rw [List.map_reverse, List.nodup_reverse]
    exact hrooted.nodup_paths
  have hwithdrawn (live : Service) (found : app.service? s.path = some live)
      (smooth : ∀ e ∈ t, e.Succeeded) : signalsOf ms =
        (live.nodes.reverse.filterMap fun n =>
          (app.directory.find? n.path).map (n.removed app.path)) ++
          (Node.overheard managed app.path live.nodes.reverse).map (Node.dropped app.path) := by
    obtain ⟨-, ht⟩ := course.smooth found smooth
    rw [signals, ht, List.flatMap_append, List.flatMap_append,
      tells_retracting (hdistinct found), tells_withdrawing]
    exact congrArg (_ ++ ·) (List.append_nil _)
  refine ⟨fun hnone => ?_, hwithdrawn, fun live found smooth n hn => ?_⟩
  · cases course with
    | absent => exact signals
    | interrupted found | stuck found | withdrawn found =>
      rw [hnone] at found
      cases found
  · have hmem := List.mem_reverse.2 hn
    have hlisted := Node.countP_filter_path (hdistinct found) hmem fun q =>
      (app.directory.find? q).isSome
    have hdropped := Node.countP_filter_path (hdistinct found) hmem (overhears managed app.path)
    rw [← countP_signalsOf Message.isSignal_of_retracts,
      hwithdrawn live found smooth, List.countP_append, Node.countP_removed,
      List.countP_map]
    exact congrArg₂ (· + ·) hlisted hdropped

theorem Launch.calls (course : Launch app t r app') : ∀ e ∈ t,
    e.call = .requestName app.name ∨ e.call = .exportObject app.path (.objectManager app.id) ∨
      e.call = .publishTree app.path app.tree := by
  cases course <;> simp [tree]

/-- Running announces what was there before, and nothing that the application will publish. -/
theorem Launch.sent (course : Launch app t r app')
    (clear : app.running = false → k.objects.Clear app.path) (only : k.objects.OnlyAt app.path)
    (conveyed : k.Conveys t ms k') : ∀ m ∈ signalsOf ms, m.OnTheWay app.path := by
  cases hrunning : app.running with
  | true =>
    cases course with
    | again =>
      rw [conveyed.signals_eq (by simp) only .nil]
      exact fun m hm => absurd hm List.not_mem_nil
    | nameless idle | unexported idle | launched idle =>
      rw [hrunning] at idle
      cases idle
  | false =>
    refine (conveyed.induct (P := fun tree => tree.Clear app.path ∧ tree.OnlyAt app.path)
      (fun k m h => ⟨Connection.settled_clear k m h.1, Connection.settled_onlyAt k m h.2⟩) ?_
      ⟨clear hrunning, only⟩).2
    rintro e he k daemon ⟨clear, only⟩ done -
    have only' := Connection.onlyAt_perform only done
    have clear' := Connection.clear_perform clear done
    rcases course.calls e he with hcall | hcall | hcall
    · rw [hcall] at done only' clear' ⊢
      rw [Connection.signals_perform only done rfl]
      exact ⟨⟨clear' nofun, only' nofun⟩, fun m hm => absurd hm List.not_mem_nil⟩
    · -- the one call here that sends signals
      rw [hcall] at done only' ⊢
      obtain ⟨hclear, hsignals⟩ := Connection.onTheWay_of_exported clear rfl done
      refine ⟨⟨hclear, only' ?_⟩, hsignals⟩
      rintro q o ⟨⟩ -
      rfl
    · rw [hcall] at done only' clear' ⊢
      rw [Connection.signals_perform only done rfl]
      exact ⟨⟨clear' nofun, only' nofun⟩, fun m hm => absurd hm List.not_mem_nil⟩

theorem Start.sent {name : String} (course : Start app name t r app')
    (signals : signalsOf ms = t.flatMap (Exchange.tells managed app.path)) :
    app.Sent managed t r app' ms (.start name) := by
  cases course with
  | active | malformed | unexported => exact Or.inl signals
  | @exported device r =>
    have hsilent (state : Application) : Exchange.tells managed app.path
        ⟨state, .registerAdvertisement device advertisementPath, r⟩ = [] :=
      Exchange.tells_of_silent rfl
    have htold : signalsOf ms = app.exportedAdvertisement.tells managed app.path := by
      rw [signals, List.flatMap_cons, List.flatMap_singleton, hsilent, List.append_nil]
      rfl
    rw [exportedAdvertisement, Call.tells] at htold
    split_ifs at htold with hears
    · exact Or.inr ⟨hears, _, htold⟩
    · exact Or.inl htold

theorem Stop.sent (course : Stop app t r app')
    (active : ∀ active ∈ app.advertisement, active.path = advertisementPath)
    (signals : signalsOf ms = t.flatMap (Exchange.tells managed app.path)) :
    app.Sent managed t r app' ms .stop := by
  cases course with
  | inactive => exact Or.inl signals
  | stopped hactive =>
    rw [List.flatMap_cons, List.flatMap_singleton, Exchange.tells_of_silent rfl, List.nil_append,
      active _ hactive, Exchange.tells] at signals
    split_ifs at signals
    · rw [Call.tells] at signals
      split_ifs at signals with hears
      · exact Or.inr ⟨hears, _, signals⟩
      · exact Or.inl signals
    · exact Or.inl signals

/-- **What is sent on the wire.**  An application is alone on its connection, and after any history
it performs an act, whatever the bus answers.

Unless the act runs the application, the signals of object managers that are sent are exactly those
that its successful calls bring about, by themselves or because the object manager overhears them.
So the nodes of a service that is added are announced once more than the application asks for, and
those of a service that is removed are retracted once more, if they lie below the application and
its object manager is exported.  It is exported while the application runs, as long as the services
are its own and advertisements are elsewhere. -/
theorem signals_sent {id : AppId} {profile : Profile} (past : (fresh id profile).History acts t app)
    (made : ∀ b ∈ acts, b.Uses fun s => ∃ root, s.Made root)
    (conveyed : Connection.fresh.Conveys t ms k) (offered : a.Uses fun s => ∃ root, s.Made root)
    (performs : app.Performs a.operation u r app') (conveyed' : k.Conveys u ns k') :
    (a ≠ .run →
      signalsOf ns = u.flatMap (Exchange.tells (k.objects.manages app.path) app.path)) ∧
      app.Sent (k.objects.manages app.path) u r app' ns a ∧
      ((∀ b ∈ acts, b.Uses (Service.Made profile.path)) →
        ¬ profile.path.IsWithin advertisementPath →
          k.objects.manages app.path = app.running) := by
  have orderly : Orderly (fun _ => True) t app :=
    orderly_of_history past fun b hb => (made b hb).imp fun _ ⟨root, h⟩ => ⟨root, trivial, h⟩
  have only := orderly.onlyAt conveyed
  have signals (ha : a ≠ .run) :
      signalsOf ns = u.flatMap (Exchange.tells (k.objects.manages app.path) app.path) :=
    conveyed'.signals_eq (not_launches_of_ne_run performs ha) only
      (ordered_of_performs performs orderly.tidy offered)
  refine ⟨signals, ?_, fun own apart => ?_⟩
  · cases a with
    | run => exact (performs_run performs).sent (orderly.clear past conveyed) only conveyed'
    | create properties advertised =>
      obtain ⟨rfl, -⟩ := performs_create performs
      exact signals nofun
    | add s =>
      obtain ⟨root, hmade⟩ := offered
      exact (performs_addService performs).sent hmade.rooted (signals nofun)
    | remove s => exact (performs_removeService performs).sent orderly.tidy (signals nofun)
    | update path value =>
      refine (signals nofun).trans ?_
      rcases performs_updateValue performs with ⟨-, rfl, -, -⟩ | ⟨services, -, -, rfl⟩
      · rfl
      · rw [List.flatMap_singleton, Exchange.tells_of_silent rfl]
    | start name => exact (performs_startAdvertising performs).sent (signals nofun)
    | stop => exact (performs_stopAdvertising performs).sent orderly.active (signals nofun)
  · have hpath : app.path = profile.path := congrArg Profile.path past.profile
    rw [hpath, Bool.eq_iff_iff]
    exact ⟨running_of_manages past conveyed, manages_of_running past own apart conveyed⟩

/-- An application is run on a connection of its own. -/
def aloneRun : List (Exchange Application) × Application × Traffic :=
  play (Traffic.ownBus {}) (fresh 0 Sample.profile) [.run] ⟨0, .fresh, [], []⟩

/-- The connection once the application has been run. -/
def aloneConnection : Connection := aloneRun.2.2.connection

/-- Then a service is added; the record starts anew. -/
def aloneAddition : List (Exchange Application) × (Answer × Application) × Traffic :=
  (aloneRun.2.1.script (addService Sample.battery)).record (Traffic.ownBus {})
    ⟨0, aloneConnection, [], []⟩

theorem conveys_aloneRun : ∃ ms, Connection.fresh.Conveys aloneRun.1 ms aloneConnection := by
  obtain ⟨ms, hconveys, -⟩ := conveys_play (Traffic.transparent_ownBus {})
    (fresh 0 Sample.profile) [.run] ⟨0, .fresh, [], []⟩
  exact ⟨ms, hconveys⟩

theorem conveys_aloneAddition : aloneConnection.Conveys aloneAddition.1 aloneAddition.2.2.sent
    aloneAddition.2.2.connection := by
  obtain ⟨ns, hconveys, hsent⟩ := Script.conveys_record (Traffic.transparent_ownBus {})
    (aloneRun.2.1.script (addService Sample.battery)) ⟨0, aloneConnection, [], []⟩
  obtain rfl : aloneAddition.2.2.sent = ns := hsent
  exact hconveys

theorem history_aloneRun : (fresh 0 Sample.profile).History [.run] aloneRun.1 aloneRun.2.1 :=
  history_play ..

theorem performs_aloneAddition : aloneRun.2.1.Performs (Act.add Sample.battery).operation
    aloneAddition.1 aloneAddition.2.1.1 aloneAddition.2.1.2 :=
  performs_record ..

/-- The hypotheses are satisfiable: a service with three nodes is added on a connection of its own,
and every call succeeds.  Six signals are sent. -/
theorem signals_sent_battery :
    aloneAddition.2.1.1 = .ok () ∧ (signalsOf aloneAddition.2.2.sent).length = 6 ∧
      aloneConnection.objects.manages aloneRun.2.1.path = true ∧
      SentByAddition true aloneRun.2.1 Sample.battery aloneAddition.1 aloneAddition.2.1.1
        aloneAddition.2.1.2 aloneAddition.2.2.sent := by
  obtain ⟨ms, hconveys⟩ := conveys_aloneRun
  obtain ⟨-, hsent, hmanages⟩ := signals_sent (a := .add Sample.battery) history_aloneRun
    (by simp [Act.Uses]) hconveys ⟨_, Sample.made_battery⟩ performs_aloneAddition
    conveys_aloneAddition
  have hrunning : aloneConnection.objects.manages aloneRun.2.1.path = true :=
    hmanages (by simp [Act.Uses]) (by decide)
  rw [hrunning] at hsent
  exact ⟨by decide, by decide, hrunning, hsent⟩

/-- **Each node is told of once**: an addition that succeeds announces every node, parents first and
with its entry in the directory; one in which an export fails announces none; a removal in which no
call fails retracts every node, children first; and nothing else is sent. -/
def ToldOnce (app : Application) (t : List (Exchange Application)) (r : Answer)
    (app' : Application) (ms : List Message) : Act → Prop
  | .add s =>
    (r = .ok () → signalsOf ms = s.nodes.map (Node.added app.path) ∧
      ∀ n ∈ s.nodes, app'.directory.find? n.path = some n.interfaces) ∧
      ((∃ e ∈ t, e.call.kind = .exportObject ∧ ¬ e.Succeeded) → signalsOf ms = [])
  | .remove s => ∀ live, app.service? s.path = some live → (∀ e ∈ t, e.Succeeded) →
    ∃ names : Node → List String, signalsOf ms = live.nodes.reverse.map fun n =>
      .interfacesRemoved app.path n.path (names n)
  | _ => signalsOf ms = []

/-- **Nodes are told of more than once**, even if no call fails: the application that was run alone
announces each node of the service after the connection did. -/
theorem not_told_once :
    ¬ ∀ (acts : List Act) (t u : List (Exchange Application)) (app app' : Application)
      (k k' : Connection) (ms ns : List Message) (a : Act) (r : Answer),
      (fresh 0 Sample.profile).History acts t app →
      (∀ b ∈ acts ++ [a], b.Uses (Service.Made Sample.profile.path)) →
      Connection.fresh.Conveys t ms k → app.Performs a.operation u r app' →
      k.Conveys u ns k' → app.ToldOnce u r app' ns a := by
  intro hclaim
  obtain ⟨ms, hconveys⟩ := conveys_aloneRun
  have honce := hclaim _ _ _ _ _ _ _ _ _ (.add Sample.battery) _ history_aloneRun
    (by simpa [Act.Uses] using Sample.made_battery) hconveys performs_aloneAddition
    conveys_aloneAddition
  have hlength : (signalsOf aloneAddition.2.2.sent).length = 3 := by
    rw [(honce.1 (by decide)).1]
    rfl
  exact absurd hlength (by decide)

end Application
end GattServer
