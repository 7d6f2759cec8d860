/-
# What an act on one service leaves alone

An application keeps all its services in one list, lists all their nodes in one directory and
exports them on one bus.  Still, adding a service, removing it or updating one of its
characteristics changes nothing of the others, whether it succeeds or fails
(`Application.others_left_alone`).

The reason is that the path of a node tells its service.  So whatever such an act does to the
directory, it does to entries that the service owns, and the application without these and without
the service stays the same from call to call (`Addition.spares`, `Removal.spares`,
`Application.Tidy.without_showing_self`).
-/

import GattServer.Proofs.Subjects
import GattServer.Proofs.Undo

namespace GattServer

/-- An act on a service, or on a characteristic that was created for it. -/
def Act.Concerns (s : Service) : Act → Prop
  | .add v | .remove v => v = s
  | .update path _ => ∃ c : Characteristic, c.Made ∧ c.service = s.path ∧ c.path = path
  | .run | .create _ _ | .start _ | .stop => False

/-- The path of the object that a call exports, withdraws, announces, retracts or updates. -/
def Call.place? : Call → Option ObjectPath
  | .exportObject path _ | .withdrawObject path _ | .announce _ path _ | .retract _ path _
  | .updateValue path _ => some path
  | .requestName _ | .publishTree _ _ | .registerAdvertisement _ _
  | .unregisterAdvertisement _ _ => none

namespace Application

variable {app app' : Application} {a : Act} {s : Service} {n : Node} {nodes : List Node}
  {acts : List Act} {t u : List (Exchange Application)} {r : Answer} {root p q : ObjectPath}
  {roots : ObjectPath → Prop} {value : List UInt8} {services : List Service}

/-! ### Steps on what a service owns -/

theorem without_leave_of_owner (h : ∀ n ∈ nodes, n.path.owner = p) :
    (app.leave nodes).without p = app.without p := by
  induction nodes generalizing app with
  | nil => rfl
  | cons n ns ih =>
    have hgone : (app.without p).directory.find? n.path = none := by
      show (app.directory.filterKeys _).find? n.path = none
      rw [FinMap.find?_filterKeys, if_neg (by simpa using h n List.mem_cons_self)]
    rw [leave_cons app n ns, ih fun m hm => h m (List.mem_cons_of_mem _ hm), without_leave,
      leave_of_find?_eq_none hgone]

namespace Tidy

theorem without_disown_self (tidy : app.Tidy roots) :
    (app.disown p).without p = app.without p := by
  have hgone : ∀ s ∈ (app.without p).services, ¬ decide (s.path = p) = true := fun s hs => by
    simpa using (List.mem_filter.1 hs).2
  rw [Application.without_disown tidy, Application.disown, List.eraseP_of_forall_not hgone]

/-- **Another value for a node of a service** changes the service, and no other one. -/
theorem without_showing_self (tidy : app.Tidy roots) (howner : q.owner = p)
    (hset : setValueIn? q value app.services = some services) :
    (app.showing q value services).without p = app.without p := by
  obtain ⟨before, v, after, w, hservices, hw, rfl⟩ := setValueIn?_eq_some hset
  have hv : v.path = p := by
    obtain ⟨root, -, hrooted⟩ := tidy.rooted v (by simp [hservices])
    obtain ⟨c, hc, rfl⟩ := Service.characteristic_of_setValue? hw
    have hnode : Node.characteristic v c ∈ v.nodes :=
      Service.mem_nodes.2 (Or.inr ⟨c, hc, Or.inl rfl⟩)
    rw [← howner, ← hrooted.owner_eq hnode, Node.path]
  have hothers : ((before ++ w :: after).filter fun s => s.path ≠ p) =
      (app.without p).services := by
    show _ = app.services.filter fun s => s.path ≠ p
    simp [hservices, List.filter_append, hv, Service.setValue?_path hw]
  have hdirectory : (app.without p).directory.setProperty q Interface.characteristic "Value"
      (.bytes value) = (app.without p).directory := by
    rw [Directory.setProperty_value]
    refine FinMap.modify_of_fixed fun interfaces hfind => ?_
    replace hfind : (app.directory.filterKeys fun k => k.owner ≠ p).find? q = some interfaces :=
      hfind
    rw [FinMap.find?_filterKeys, if_neg (by simpa using howner)] at hfind
    cases hfind
  rw [without_showing, Application.showing, hothers, hdirectory]

end Tidy

/-! ### Calls within the subtree of a service -/

/-- An exchange in a state that differs at most in what the service of a path owns, and about an
object that it owns, if about any. -/
def SparedBy (p : ObjectPath) (app : Application) (e : Exchange Application) : Prop :=
  e.state.without p = app.without p ∧ ∀ q ∈ e.call.place?, q.IsWithin p

theorem sparedBy_node {c : Call} (howner : n.path.owner = p) (hplace : c.place? = some n.path)
    (hstate : app'.without p = app.without p) : app.SparedBy p ⟨app', c, r⟩ := by
  refine ⟨hstate, fun q hq => ?_⟩
  rw [hplace, Option.mem_some_iff] at hq
  rw [← hq, ← howner]
  exact n.path.isWithin_owner

theorem sparedBy_exporting (howner : ∀ n ∈ nodes, n.path.owner = p) :
    ∀ e ∈ app.exporting nodes, app.SparedBy p e := by
  intro e he
  obtain ⟨n, hn, rfl⟩ := mem_exporting he
  exact sparedBy_node (howner n hn) rfl rfl

theorem sparedBy_announcing (howner : ∀ n ∈ nodes, n.path.owner = p)
    (hstate : app'.without p = app.without p) :
    ∀ e ∈ app'.announcing nodes, app.SparedBy p e := by
  intro e he
  obtain ⟨before, n, after, rfl, rfl⟩ := mem_announcing he
  refine sparedBy_node (howner n (by simp)) rfl ?_
  rw [without_enter_of_owner, hstate]
  exact fun m hm => howner m (List.append_cons before n after ▸ List.mem_append_left _ hm)

theorem sparedBy_retracting (howner : ∀ n ∈ nodes, n.path.owner = p)
    (hstate : app'.without p = app.without p) :
    ∀ e ∈ app'.retracting nodes, app.SparedBy p e := by
  intro e he
  obtain ⟨before, n, after, interfaces, rfl, rfl⟩ := mem_retracting he
  refine sparedBy_node (howner n (by simp)) rfl ?_
  rw [without_leave_of_owner, hstate]
  exact fun m hm => howner m (List.append_cons before n after ▸ List.mem_append_left _ hm)

theorem sparedBy_withdrawing (howner : ∀ n ∈ nodes, n.path.owner = p)
    (hstate : app'.without p = app.without p) :
    ∀ e ∈ app'.withdrawing nodes, app.SparedBy p e := by
  intro e he
  obtain ⟨n, hn, rfl⟩ := mem_withdrawing he
  exact sparedBy_node (howner n hn) rfl hstate

/-! ### The courses of an act on a service -/

/-- **Adding a service spares what it does not own**, at every call and in the end. -/
theorem Addition.spares (course : Addition app s t r app') (hs : s.Rooted root) :
    app'.without s.path = app.without s.path ∧ ∀ e ∈ t, app.SparedBy s.path e := by
  have howner : ∀ n ∈ s.nodes, n.path.owner = s.path := fun n hn => hs.owner_eq hn
  have hadopt : (app.adopt s).without s.path = app.without s.path := without_adopt_self
  have hpublished : ∀ r : Answer, app.SparedBy s.path
      ⟨app.adopt s, .publishTree app.path (app.adopt s).tree, r⟩ := fun r =>
    ⟨hadopt, fun q hq => absurd hq (Option.not_mem_none q)⟩
  have hexports : ∀ e ∈ app.exporting s.nodes, app.SparedBy s.path e := sparedBy_exporting howner
  cases course with
  | refused => exact ⟨rfl, by simp⟩
  | @rolledBack done rest n e back _ nodes withdrawals =>
    rw [nodes, List.forall_mem_append, List.forall_mem_cons] at howner
    obtain ⟨hdone, hn, -⟩ := howner
    refine ⟨rfl, List.forall_mem_append.2 ⟨sparedBy_exporting hdone, List.forall_mem_cons.2
      ⟨sparedBy_node hn rfl rfl, fun e he => ?_⟩⟩⟩
    obtain ⟨state, call, answer⟩ := e
    obtain ⟨rfl, m, hm, rfl⟩ := mem_of_question withdrawals he
    exact sparedBy_node (hdone m (List.mem_reverse.1 hm)) rfl rfl
  | unpublished =>
    exact ⟨hadopt, List.forall_mem_append.2
      ⟨hexports, List.forall_mem_singleton.2 (hpublished _)⟩⟩
  | @unannounced done rest n e _ nodes =>
    have hentered : ∀ m ∈ done ++ [n], m.path.owner = s.path := fun m hm => by
      rw [nodes, List.append_cons] at howner
      exact howner m (List.mem_append_left _ hm)
    have hend : ((app.adopt s).enter (done ++ [n])).without s.path = app.without s.path :=
      (without_enter_of_owner hentered).trans hadopt
    refine ⟨hend, List.forall_mem_append.2 ⟨hexports, List.forall_mem_cons.2 ⟨hpublished _,
      List.forall_mem_append.2 ⟨sparedBy_announcing ?_ hadopt, List.forall_mem_singleton.2 ?_⟩⟩⟩⟩
    · exact fun m hm => hentered m (List.mem_append_left _ hm)
    · exact sparedBy_node (hentered n (by simp)) rfl hend
  | completed =>
    exact ⟨(without_enter_of_owner howner).trans hadopt, List.forall_mem_append.2 ⟨hexports,
      List.forall_mem_cons.2 ⟨hpublished _, sparedBy_announcing howner hadopt⟩⟩⟩

/-- **Removing a service spares what it does not own**, at every call and in the end. -/
theorem Removal.spares (course : Removal app s t r app') (tidy : app.Tidy roots) :
    app'.without s.path = app.without s.path ∧ ∀ e ∈ t, app.SparedBy s.path e := by
  have hdisown : (app.disown s.path).without s.path = app.without s.path :=
    tidy.without_disown_self
  have howner : ∀ live, app.service? s.path = some live →
      ∀ n ∈ live.nodes.reverse, n.path.owner = s.path := by
    intro live found n hn
    obtain ⟨hlive, hpath⟩ := mem_of_service? found
    obtain ⟨root, -, hrooted⟩ := tidy.rooted live hlive
    rw [hrooted.owner_eq (List.mem_reverse.1 hn), hpath]
  cases course with
  | absent => exact ⟨rfl, by simp⟩
  | @interrupted live done rest n interfaces e found nodes _ =>
    have hleft : ∀ m ∈ done ++ [n], m.path.owner = s.path := fun m hm => by
      have hlive := howner live found
      rw [nodes, List.append_cons] at hlive
      exact hlive m (List.mem_append_left _ hm)
    have hend : ((app.disown s.path).leave (done ++ [n])).without s.path = app.without s.path :=
      (without_leave_of_owner hleft).trans hdisown
    refine ⟨hend, List.forall_mem_append.2
      ⟨sparedBy_retracting ?_ hdisown, List.forall_mem_singleton.2 ?_⟩⟩
    · exact fun m hm => hleft m (List.mem_append_left _ hm)
    · exact sparedBy_node (hleft n (by simp)) rfl hend
  | @stuck live done rest n e found nodes =>
    have hlive := howner live found
    have hend := (without_leave_of_owner hlive).trans hdisown
    refine ⟨hend, List.forall_mem_append.2 ⟨sparedBy_retracting hlive hdisown,
      List.forall_mem_append.2 ⟨sparedBy_withdrawing ?_ hend, List.forall_mem_singleton.2 ?_⟩⟩⟩
    · exact fun m hm => hlive m (nodes ▸ List.mem_append_left _ hm)
    · exact sparedBy_node (hlive n (by simp [nodes])) rfl hend
  | @withdrawn live r found =>
    have hlive := howner live found
    have hend := (without_leave_of_owner hlive).trans hdisown
    exact ⟨hend, List.forall_mem_append.2 ⟨sparedBy_retracting hlive hdisown,
      List.forall_mem_append.2 ⟨sparedBy_withdrawing hlive hend, List.forall_mem_singleton.2
        ⟨hend, fun q hq => absurd hq (Option.not_mem_none q)⟩⟩⟩⟩

/-- **Every act on a service spares what it does not own.** -/
theorem Tidy.spares (tidy : app.Tidy roots) (hs : s.Rooted root) (concerns : a.Concerns s)
    (performs : app.Performs a.operation t r app') :
    app'.without s.path = app.without s.path ∧ ∀ e ∈ t, app.SparedBy s.path e := by
  cases a with
  | run | create | start | stop => exact concerns.elim
  | add v =>
    obtain rfl : v = s := concerns
    exact (performs_addService performs).spares hs
  | remove v =>
    obtain rfl : v = s := concerns
    exact (performs_removeService performs).spares tidy
  | update path value =>
    obtain ⟨c, made, hservice, rfl⟩ := concerns
    have howner : c.path.owner = s.path := by
      obtain ⟨k, hk⟩ := made.belongs.path_eq
      rw [hk, ObjectPath.owner_push_other _ (by simp), hservice, hs.owner_path]
    rcases performs_updateValue performs with ⟨-, rfl, -, rfl⟩ | ⟨services, found, rfl, rfl⟩
    · exact ⟨rfl, by simp⟩
    · have hend := tidy.without_showing_self howner found
      refine ⟨hend, List.forall_mem_singleton.2 ⟨hend, fun q hq => ?_⟩⟩
      rw [Call.place?, Option.mem_some_iff] at hq
      rw [← hq, ← howner]
      exact c.path.isWithin_owner

/-! ### The other services -/

/-- Two states of an application that differ at most in the live service of a path and in what is
listed at the path or below. -/
structure SameElsewhere (p : ObjectPath) (app app' : Application) : Prop where
  /-- The entries of the directory that are neither at the path nor below it. -/
  directory : ∀ q, ¬ q.IsWithin p → app'.directory.find? q = app.directory.find? q
  /-- The other live services with all their nodes and values, in their order. -/
  services : (app'.services.filter fun s => s.path ≠ p) = app.services.filter fun s => s.path ≠ p
  running : app'.running = app.running
  created : app'.created = app.created
  advertisement : app'.advertisement = app.advertisement

theorem sameElsewhere_of_without (h : app'.without p = app.without p) :
    app.SameElsewhere p app' where
  directory q hq := by
    have howner : q.owner ≠ p := fun howner => hq (howner ▸ q.isWithin_owner)
    rw [← find?_without howner, h, find?_without howner]
  services := congrArg Application.services h
  running := (congrArg Application.running h : (app'.without p).running = _)
  created := (congrArg Application.created h : (app'.without p).created = _)
  advertisement := (congrArg Application.advertisement h : (app'.without p).advertisement = _)

/-- **An act on one service leaves the others alone.**  After any history, in which any calls may
have failed, a service is added or removed, or a characteristic of it is updated.  Whatever the
calls are answered, and also at each of them, everything else is as before: the entries of the
directory outside its subtree, the other live services in their order, whether the application runs,
how many services it has created, and its advertisement.  All that is exported, withdrawn,
announced, retracted or updated lies at the path of the service or below. -/
theorem others_left_alone {id : AppId} {profile : Profile}
    (past : (fresh id profile).History acts t app)
    (made : ∀ a ∈ acts, a.Uses fun v => ∃ root, v.Made root) (hs : s.Made root)
    (concerns : a.Concerns s) (performs : app.Performs a.operation u r app') :
    app.SameElsewhere s.path app' ∧
      ∀ e ∈ u, app.SameElsewhere s.path e.state ∧ ∀ q ∈ e.call.place?, q.IsWithin s.path := by
  have orderly : Orderly (fun _ => True) t app :=
    orderly_of_history past fun a ha => (made a ha).imp fun v ⟨root, hv⟩ => ⟨root, trivial, hv⟩
  obtain ⟨hend, hcalls⟩ := orderly.tidy.spares hs.rooted concerns performs
  refine ⟨sameElsewhere_of_without hend, fun e he => ?_⟩
  obtain ⟨hstate, hplace⟩ := hcalls e he
  exact ⟨sameElsewhere_of_without hstate, hplace⟩

/-- A service whose path continues that of `Sample.battery` as a text and lies next to it in the
tree. -/
def tenth : Service := .new (Sample.profile.path.push (Segment.service.numbered 10))
  ⟨.ofAlias 0x180D, true⟩ true

theorem made_tenth : tenth.Made Sample.profile.path :=
  @Service.Made.created _ { Application.fresh 0 Sample.profile with created := 9 } _ _ _ _ rfl rfl

/-- The hypotheses are satisfiable: a service is removed next to another one, and the first of its
withdrawals fails. -/
theorem others_left_alone_tenth :
    let before := play Sample.answering (fresh 0 Sample.profile)
      [.run, .add tenth, .add Sample.battery] []
    let removed := (before.2.1.script (removeService Sample.battery)).record Sample.answering
      (List.replicate 3 (.ok ()) ++ [Sample.failure])
    removed.2.1.1 = Sample.failure ∧ removed.2.1.2.directory.keys = [tenth.path] ∧
      before.2.1.SameElsewhere Sample.batteryPath removed.2.1.2 := by
  intro before removed
  refine ⟨by decide, by decide, (others_left_alone (history_play _ _ _ _) (fun a ha => ?_)
    Sample.made_battery (a := .remove Sample.battery) rfl (performs_record _ _ _ _)).1⟩
  simp only [List.mem_cons, List.not_mem_nil, or_false] at ha
  rcases ha with rfl | rfl | rfl
  · trivial
  · exact ⟨_, made_tenth⟩
  · exact ⟨_, Sample.made_battery⟩

end Application
end GattServer
