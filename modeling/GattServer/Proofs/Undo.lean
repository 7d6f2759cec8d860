/-
# Removing undoes adding

A service is added and later removed, and in between other services are added, removed and updated.
Then in the end everything is as if only the others had been there: the live services in their
order, the directory, the published tree and the objects that the bus holds
(`Application.remove_undoes_add`).  The addition may have failed after its exports, when some first
nodes are listed and all are exported; the removal retracts those that were announced and withdraws
all of them.

The two histories are run side by side (`Application.Beside`).  They start to differ with the
addition, which leaves nothing but the service itself (`Application.Beside.start`), and a removal
that no call interrupts takes away what the one has more than the other
(`Application.Beside.removal`).  The same goes for what the bus holds (`held_alikeBut`).
-/

import GattServer.Proofs.Beside
import GattServer.Proofs.Dangling

namespace GattServer

/-! ### What the bus holds -/

/-- The nodes of a service as objects on the bus. -/
def Service.objects (s : Service) : Held := (s.nodes.map Node.pair).toFinset

section Held

variable {σ : Type} {H S : Held} {p : ObjectPath} {e f : Exchange σ} {t u : List (Exchange σ)}

/-- An exchange about other objects does the same without some objects of a service. -/
theorem Exchange.after_alikeBut (hS : ∀ x ∈ S, x.1.owner = p)
    (h : Script.SameAnswer (Call.AlikeBut p) e f) : f.after (H \ S) = e.after H \ S := by
  obtain ⟨state, c, answer⟩ := e
  obtain ⟨state', c', answer'⟩ := f
  obtain ⟨hcall, hanswer⟩ := h
  obtain rfl : answer = answer' := hanswer
  obtain ⟨hcc, hobject⟩ | ⟨root, tree, tree', hc, hc'⟩ := hcall
  · obtain rfl : c = c' := hcc
    have hfree : ∀ x ∈ c.object?, x ∉ S := fun x hx hmem => hobject x hx (hS x hmem)
    cases c with
    | exportObject path object =>
      cases answer with
      | ok => exact (Finset.insert_sdiff_of_notMem H (hfree _ rfl)).symm
      | error => rfl
    | withdrawObject path kind =>
      cases answer with
      | ok => exact (Finset.erase_sdiff_comm H S _).symm
      | error => rfl
    | _ => rfl
  · obtain rfl : c = .publishTree root tree := hc
    obtain rfl : c' = .publishTree root tree' := hc'
    rfl

theorem Exchange.Accepted.alikeBut (h : e.Accepted H)
    (halike : Script.SameAnswer (Call.AlikeBut p) e f) : f.Accepted (H \ S) := by
  obtain ⟨state, c, answer⟩ := e
  obtain ⟨state', c', answer'⟩ := f
  obtain ⟨hcall, hanswer⟩ := halike
  obtain rfl : answer = answer' := hanswer
  obtain ⟨hcc, -⟩ | ⟨root, tree, tree', -, hc'⟩ := hcall
  · obtain rfl : c = c' := hcc
    cases c with
    | exportObject path object =>
      cases answer with
      | ok => exact fun hmem => h (Finset.mem_sdiff.1 hmem).1
      | error => trivial
    | _ => trivial
  · obtain rfl : c' = .publishTree root tree' := hc'
    trivial

/-- **Exchanges about other objects do the same without some objects of a service.** -/
theorem held_alikeBut (hS : ∀ x ∈ S, x.1.owner = p) (refusing : Refusing H t)
    (halike : List.Forall₂ (Script.SameAnswer (Call.AlikeBut p)) t u) :
    Refusing (H \ S) u ∧ held (H \ S) u = held H t \ S := by
  induction halike generalizing H with
  | nil => exact ⟨trivial, rfl⟩
  | @cons e f t u hfirst hrest ih =>
    obtain ⟨haccepted, hrefusing⟩ := refusing
    obtain ⟨hu, hheld⟩ := ih hrefusing
    rw [refusing_cons, held_cons, held_cons, Exchange.after_alikeBut hS hfirst]
    exact ⟨⟨haccepted.alikeBut hfirst, hu⟩, hheld⟩

end Held

/-! ### The calls of an addition and a removal -/

namespace Application

variable {app app' mid : Application} {s : Service} {n : Node} {nodes done rest : List Node}
  {acts w : List Act} {t u : List (Exchange Application)} {r : Answer} {root p : ObjectPath}
  {shown : ObjectPath → Option InterfaceMap} {H : Held}

theorem calls_exporting : (app.exporting nodes).map Exchange.call =
    nodes.map (Node.exported app.id) := by
  rw [exporting, List.map_map]
  rfl

theorem calls_withdrawing : (app.withdrawing nodes).map Exchange.call =
    nodes.map Node.withdrawn := by
  rw [withdrawing, List.map_map]
  rfl

theorem calls_announcing : (app.announcing nodes).map Exchange.call =
    nodes.map (Node.announced app.path) := by
  induction nodes generalizing app with
  | nil => rfl
  | cons n ns ih =>
    rw [announcing, List.map_cons, List.map_cons, ih]
    rfl

/-- Nodes of different paths are retracted with what is listed of them in the beginning. -/
theorem calls_retracting (h : (nodes.map Node.path).Nodup) :
    (app.retracting nodes).map Exchange.call = nodes.filterMap fun n =>
      (app.directory.find? n.path).map (n.retracted app.path) := by
  induction nodes generalizing app with
  | nil => rfl
  | cons n ns ih =>
    obtain ⟨hn, hns⟩ := List.nodup_cons.1 h
    rw [retracting, List.filterMap_cons]
    cases hfind : app.directory.find? n.path with
    | none => exact ih hns
    | some interfaces =>
      have hother : ∀ m ∈ ns, (app.leave [n]).directory.find? m.path =
          app.directory.find? m.path := by
        intro m hm
        refine FinMap.find?_erase_of_ne _ fun hmn => hn ?_
        exact hmn ▸ List.mem_map_of_mem hm
      rw [List.map_cons, ih hns]
      simp only [Option.map_some]
      congr 1
      exact List.filterMap_congr fun m hm => by rw [hother m hm]; rfl

theorem announce_calls_exporting : ((app.exporting nodes).map Exchange.call).filter
    (fun c => c.kind = .announce) = [] := by
  rw [calls_exporting, List.filter_eq_nil_iff]
  intro c hc
  obtain ⟨n, -, rfl⟩ := List.mem_map.1 hc
  simp [Node.exported, Call.kind]

theorem announce_calls_announced : (nodes.map (Node.announced p)).filter
    (fun c => c.kind = .announce) = nodes.map (Node.announced p) := by
  rw [List.filter_eq_self]
  intro c hc
  obtain ⟨n, -, rfl⟩ := List.mem_map.1 hc
  simp [Node.announced, Call.kind]

/-- **What an addition leaves that got past its exports**: the service is live, and some first
nodes are listed, which are those that were announced. -/
theorem Addition.past_exports (course : Addition app s t r app') (welcome : app.Welcomes s)
    (exports : ∀ e ∈ t, e.call.kind = .exportObject → e.Succeeded) :
    ∃ done rest more, s.nodes = done ++ rest ∧ app' = (app.adopt s).enter done ∧
      (t.map Exchange.call).filter (fun c => c.kind = .announce) =
        done.map (Node.announced app.path) ∧
      t = app.exporting s.nodes ++ more ∧ ∀ e ∈ more, e.moved? = none := by
  have hcalls : ∀ ns : List Node, ((app.adopt s).announcing ns).map Exchange.call =
      ns.map (Node.announced app.path) := fun ns => calls_announcing
  cases course with
  | refused unwelcome => exact absurd welcome unwelcome
  | @rolledBack done rest n e back _ nodes withdrawals =>
    have hfailed := exports ⟨app, n.exported app.id, .error e⟩ (by simp) rfl
    cases hfailed
  | @unpublished e _ =>
    refine ⟨[], s.nodes, _, rfl, rfl, ?_, rfl, fun f hf => ?_⟩
    · rw [List.map_append, List.filter_append, announce_calls_exporting]
      rfl
    · rw [List.mem_singleton.1 hf]
      rfl
  | @unannounced done rest n e _ nodes =>
    refine ⟨done ++ [n], rest, _, by simpa using nodes, rfl, ?_, rfl, fun f hf => ?_⟩
    · rw [List.map_append, List.filter_append, announce_calls_exporting,
        ← announce_calls_announced, List.map_cons,
        List.map_append, hcalls, List.map_append]
      rfl
    · simp only [List.mem_cons, List.mem_append, List.not_mem_nil, or_false] at hf
      rcases hf with rfl | hf | rfl
      · rfl
      · exact Exchange.moved?_of_object?_eq_none (object?_of_mem_announcing hf)
      · rfl
  | completed _ =>
    refine ⟨s.nodes, [], _, (List.append_nil _).symm, rfl, ?_, rfl, fun f hf => ?_⟩
    · rw [List.map_append, List.filter_append, announce_calls_exporting,
        ← announce_calls_announced, List.map_cons, hcalls]
      rfl
    · rcases List.mem_cons.1 hf with rfl | hf
      · rfl
      · exact Exchange.moved?_of_object?_eq_none (object?_of_mem_announcing hf)

/-- **What a removal does that no call interrupts.** -/
theorem Removal.smooth (course : Removal app s t r app') {live : Service}
    (found : app.service? s.path = some live) (smooth : ∀ e ∈ t, e.Succeeded) :
    app' = (app.disown s.path).leave live.nodes.reverse ∧
      t = (app.disown s.path).retracting live.nodes.reverse ++
        (app'.withdrawing live.nodes.reverse ++
          [⟨app', .publishTree app.path app'.tree, .ok ()⟩]) := by
  cases course with
  | absent h =>
    rw [h] at found
    cases found
  | interrupted =>
    have hfailed := smooth _ (List.mem_append_right _ List.mem_cons_self)
    cases hfailed
  | stuck =>
    have hfailed := smooth _ (List.mem_append_right _ (List.mem_append_right _ List.mem_cons_self))
    cases hfailed
  | @withdrawn other r found' =>
    obtain rfl : other = live := Option.some.inj (found'.symm.trans found)
    have hlast : r = .ok () :=
      smooth ⟨_, _, r⟩ (List.mem_append_right _ (List.mem_append_right _ List.mem_cons_self))
    rw [hlast]
    exact ⟨rfl, rfl⟩

/-! ### Where the histories part and meet -/

theorem without_adopt_self : (app.adopt s).without s.path = app.without s.path := by
  simp [without, adopt, List.filter_append]

theorem without_enter_of_owner (h : ∀ n ∈ nodes, n.path.owner = p) :
    (app.enter nodes).without p = app.without p := by
  induction nodes generalizing app with
  | nil => rfl
  | cons n ns ih =>
    have hn : decide (n.path.owner ≠ p) = false := by simpa using h n List.mem_cons_self
    have hfirst : (app.enter [n]).without p = app.without p := by
      simp only [without, enter, List.foldl_cons, List.foldl_nil]
      congr 1
      exact FinMap.filterKeys_insert_of_neg hn
    rw [enter_cons app n ns,
      ih fun m hm => h m (List.mem_cons_of_mem _ hm), hfirst]

/-- Where nothing of a path is live or listed, there is nothing to take away. -/
theorem without_eq_self (hnew : app.service? p = none)
    (hfree : ∀ q ∈ app.directory.keys, q.owner ≠ p) : app.without p = app := by
  have hservices : (app.services.filter fun s => s.path ≠ p) = app.services :=
    List.filter_eq_self.2 fun s hs => by simpa using service?_eq_none.1 hnew s hs
  have hdirectory : (app.directory.filterKeys fun q => q.owner ≠ p) = app.directory :=
    FinMap.filterKeys_eq_self fun q hq => by simpa using hfree q hq
  rw [without, hservices, hdirectory]

theorem directory_leave :
    (app.leave nodes).directory = app.directory.filterKeys fun q => q ∉ nodes.map Node.path := by
  induction nodes generalizing app with
  | nil => exact (FinMap.filterKeys_eq_self fun q _ => by simp).symm
  | cons n ns ih =>
    rw [leave_cons app n ns, ih]
    refine FinMap.ext_entries ?_
    show List.filter _ (List.filter _ app.directory.entries) = _
    rw [List.filter_filter]
    refine List.filter_congr fun e _ => ?_
    simp [Bool.and_comm]

/-- What is listed of a service that was added until some first nodes were announced. -/
theorem find?_of_added (hs : s.Rooted root) (hfree : ∀ q ∈ app.directory.keys, q.owner ≠ s.path)
    (hnodes : s.nodes = done ++ rest) :
    (∀ n ∈ done, ((app.adopt s).enter done).directory.find? n.path = some n.interfaces) ∧
      ∀ q, q.owner = s.path → q ∉ done.map Node.path →
        ((app.adopt s).enter done).directory.find? q = none := by
  constructor
  · exact fun n hn => find?_enter_of_mem (hs.nodup_paths_of_append hnodes) hn
  · intro q howner hq
    rw [find?_enter_of_notMem hq]
    refine Option.not_isSome_iff_eq_none.1 fun hsome => hfree q ?_ howner
    exact FinMap.mem_keys_iff.2 hsome

namespace Beside

/-- **Adding a service to an application that has nothing of it** gives one beside it. -/
theorem start (tidy : app.Tidy fun _ => True) (hs : s.Rooted root)
    (hnew : app.service? s.path = none) (hfree : ∀ q ∈ app.directory.keys, q.owner ≠ s.path)
    (hnodes : s.nodes = done ++ rest) :
    Beside s ((app.adopt s).enter done).directory.find? ((app.adopt s).enter done) app := by
  have htidy := tidy.adopt trivial hs hnew
  refine ⟨htidy.enter, List.mem_append_right _ List.mem_cons_self, fun q _ => rfl, ?_⟩
  have howner : ∀ n ∈ done, n.path.owner = s.path := fun n hn =>
    hs.owner_eq (hnodes ▸ List.mem_append_left _ hn)
  rw [without_enter_of_owner howner, without_adopt_self, without_eq_self hnew hfree]

/-- **Taking the service out** leaves the application without it, if only nodes of the service are
listed under its path. -/
theorem leave_disown (h : Beside s shown app app')
    (hshown : ∀ q, q.owner = s.path → (shown q).isSome → q ∈ s.nodes.map Node.path) :
    (app.disown s.path).leave s.nodes.reverse = app' := by
  obtain ⟨root, -, hrooted⟩ := h.tidy.rooted s h.mem
  have hdirectory : ((app.disown s.path).leave s.nodes.reverse).directory =
      app.directory.filterKeys fun q => q.owner ≠ s.path := by
    rw [directory_leave]
    refine FinMap.filterKeys_congr fun q hq => ?_
    rw [decide_eq_decide, not_iff_not, List.map_reverse, List.mem_reverse]
    constructor
    · intro hmem
      obtain ⟨n, hn, rfl⟩ := List.mem_map.1 hmem
      exact hrooted.owner_eq hn
    · intro howner
      refine hshown q howner ?_
      rw [← h.listed q howner]
      exact FinMap.mem_keys_iff.1 hq
  have hleave : (app.disown s.path).leave s.nodes.reverse =
      { app with
        services := (app.disown s.path).services
        directory := ((app.disown s.path).leave s.nodes.reverse).directory } := rfl
  rw [hleave, hdirectory, h.tidy.services_disown, h.eq]
  rfl

theorem service?_eq (h : Beside s shown app app') : app.service? s.path = some s := by
  cases hfound : app.service? s.path with
  | none => exact absurd rfl (service?_eq_none.1 hfound s h.mem)
  | some live =>
    obtain ⟨hlive, hpath⟩ := mem_of_service? hfound
    rw [h.tidy.unique hlive h.mem hpath]

end Beside

/-! ### The law -/

/-- **What a removal undoes.**  An application has a service added, goes through some acts and has
it removed again, with the exchanges `t₁`, `t₂` and `t₃`.  With these acts alone it ends the
same. -/
structure Undone (s : Service) (w : List Act) (H : Held) (t₁ t₂ t₃ : List (Exchange Application))
    (app app' : Application) : Prop where
  /-- The acts can be carried out alone, with the same answers to the same calls, apart from the
  trees that are published. -/
  alone : ∃ u, app.History w u app' ∧
    List.Forall₂ (Script.SameAnswer (Call.AlikeBut s.path)) t₂ u
  /-- Whenever they are, the application ends the same, and the bus holds the same; a bus that
  refuses to export what it holds can give these answers. -/
  same : ∀ u last, app.History w u last → u.map Exchange.answer = t₂.map Exchange.answer →
    last = app' ∧ Refusing H u ∧ held H u = held H (t₁ ++ t₂ ++ t₃)
  /-- The removal retracts the nodes that were announced, then withdraws all of them, and then
  publishes the tree. -/
  calls : ∃ announced rest, s.nodes = announced ++ rest ∧
    (t₁.map Exchange.call).filter (fun c => c.kind = .announce) =
      announced.map (Node.announced app.path) ∧
    t₃.map Exchange.call =
      announced.reverse.map (fun n => n.retracted app.path n.interfaces) ++
        s.nodes.reverse.map Node.withdrawn ++ [.publishTree app.path app'.tree]

theorem owner_of_mem_objects (hs : s.Rooted root) : ∀ x ∈ s.objects, x.1.owner = s.path := by
  intro x hx
  obtain ⟨n, hn, rfl⟩ := List.mem_map.1 (List.mem_toFinset.1 hx)
  exact hs.owner_eq hn

theorem held_exporting_sdiff (refusing : Refusing H (app.exporting s.nodes)) :
    held H (app.exporting s.nodes) \ s.objects = H := by
  ext x
  rw [Finset.mem_sdiff, mem_held_exporting, Service.objects, List.mem_toFinset]
  constructor
  · rintro ⟨hx | hx, hout⟩
    · exact hx
    · exact absurd hx hout
  · intro hx
    refine ⟨Or.inl hx, fun hmem => ?_⟩
    obtain ⟨n, hn, rfl⟩ := List.mem_map.1 hmem
    exact notMem_of_refusing_exporting refusing hn hx

theorem held_withdrawing_reverse :
    held H (app.withdrawing s.nodes.reverse) = H \ s.objects := by
  ext x
  rw [mem_held_withdrawing, Finset.mem_sdiff, Service.objects, List.mem_toFinset, List.map_reverse,
    List.mem_reverse]

/-- What the bus lets a service export anew, it is the first to list under its path. -/
theorem Sound.owner_ne (h : app.Sound H) (hs : s.Rooted root) (hnew : app.service? s.path = none)
    (refusing : Refusing H (app.exporting s.nodes)) :
    ∀ q ∈ app.directory.keys, q.owner ≠ s.path := by
  intro q hq howner
  have hfirst : Node.service s ∈ s.nodes := List.mem_cons_self
  have hkey : s.path ∈ app.directory.keys := howner ▸ h.owner q hq
  exact h.not_shows hs hnew (notMem_of_refusing_exporting refusing hfirst) hfirst (Or.inl hkey)

/-- **A removal retracts what was announced**, last node first. -/
theorem calls_retracting_added (hs : s.Rooted root) (hnodes : s.nodes = done ++ rest)
    (hdone : ∀ n ∈ done, app.directory.find? n.path = some n.interfaces)
    (hrest : ∀ n ∈ rest, app.directory.find? n.path = none) :
    (app.retracting s.nodes.reverse).map Exchange.call =
      done.reverse.map fun n => n.retracted app.path n.interfaces := by
  have hnodup : (s.nodes.reverse.map Node.path).Nodup := by
    rw [List.map_reverse, List.nodup_reverse]
    exact hs.nodup_paths
  have hnone : rest.reverse.filterMap (fun n =>
      (app.directory.find? n.path).map (n.retracted app.path)) = [] := by
    rw [List.filterMap_eq_nil_iff]
    intro n hn
    rw [hrest n (List.mem_reverse.1 hn)]
    rfl
  have hsome : done.reverse.filterMap (fun n =>
      (app.directory.find? n.path).map (n.retracted app.path)) =
      done.reverse.map fun n => n.retracted app.path n.interfaces := by
    rw [← List.filterMap_eq_map]
    refine List.filterMap_congr fun n hn => ?_
    rw [hdone n (List.mem_reverse.1 hn)]
    rfl
  rw [calls_retracting hnodup, hnodes, List.reverse_append, List.filterMap_append, hnone, hsome,
    List.nil_append]

/-- **A removal that no call interrupts** gives the application without the service, takes the
objects of the service off the bus, and retracts those first nodes that the addition announced. -/
theorem Beside.removal {before alone : Application}
    (h : Beside s ((before.adopt s).enter done).directory.find? app alone) (hs : s.Rooted root)
    (hfree : ∀ q ∈ before.directory.keys, q.owner ≠ s.path) (hnodes : s.nodes = done ++ rest)
    (removes : app.Performs (Application.removeService s) t r app')
    (smooth : ∀ e ∈ t, e.Succeeded) :
    app' = alone ∧ (∀ H, held H t = H \ s.objects) ∧
      t.map Exchange.call = done.reverse.map (fun n => n.retracted app.path n.interfaces) ++
        s.nodes.reverse.map Node.withdrawn ++ [.publishTree app.path app'.tree] := by
  obtain ⟨hend, ht⟩ := (performs_removeService removes).smooth h.service?_eq smooth
  obtain ⟨hdone, hother⟩ := find?_of_added hs hfree hnodes
  refine ⟨?_, fun H => ?_, ?_⟩
  · rw [hend]
    refine h.leave_disown fun q howner hsome => ?_
    by_contra hq
    rw [hother q howner fun hmem => hq ?_] at hsome
    · cases hsome
    · rw [hnodes, List.map_append]
      exact List.mem_append_left _ hmem
  · rw [ht, held_append, held_append, held_retracting, held_withdrawing_reverse]
    rfl
  · have hlisted : ∀ n ∈ s.nodes, (app.disown s.path).directory.find? n.path =
        ((before.adopt s).enter done).directory.find? n.path := fun n hn =>
      h.listed n.path (hs.owner_eq hn)
    have hretracted : ((app.disown s.path).retracting s.nodes.reverse).map Exchange.call =
        done.reverse.map fun n => n.retracted app.path n.interfaces := by
      refine calls_retracting_added hs hnodes (fun n hn => ?_) fun n hn => ?_
      · have hmem : n ∈ s.nodes := hnodes ▸ List.mem_append_left _ hn
        rw [hlisted n hmem, hdone n hn]
      · have hmem : n ∈ s.nodes := hnodes ▸ List.mem_append_right _ hn
        rw [hlisted n hmem, hother n.path (hs.owner_eq hmem)]
        exact hs.notMem_paths_of_append hnodes (List.mem_map_of_mem hn)
    rw [ht, List.map_append, List.map_append, calls_withdrawing, hretracted, List.append_assoc]
    rfl

/-- **Removing undoes adding**, also after an addition that failed past its exports.  After any
history, on a bus that refuses to export what it holds and fails any other call at will, a service
is added that is not live; other services are added, removed and updated; and the service is removed
without a failing call.  Then the application and the bus are as after the acts on the other
services alone. -/
theorem remove_undoes_add {id : AppId} {profile : Profile} {app₁ app₂ app₃ : Application}
    {t₁ t₂ t₃ : List (Exchange Application)} {r₁ r₃ : Answer}
    (past : (fresh id profile).History acts t app)
    (made : ∀ a ∈ acts ++ w, a.Uses fun v => ∃ root, v.Made root) (hs : s.Made root)
    (welcome : app.Welcomes s) (adds : app.Performs (addService s) t₁ r₁ app₁)
    (exports : ∀ e ∈ t₁, e.call.kind = .exportObject → e.Succeeded)
    (between : app₁.History w t₂ app₂) (elsewhere : ∀ a ∈ w, a.Elsewhere s)
    (removes : app₂.Performs (removeService s) t₃ r₃ app₃) (smooth : ∀ e ∈ t₃, e.Succeeded)
    (refusing : Refusing H (t ++ t₁ ++ t₂ ++ t₃)) :
    Undone s w (held H t) t₁ t₂ t₃ app app₃ := by
  have hrooted := hs.rooted
  obtain ⟨⟨⟨hrefusing, hrefusing₁⟩, hrefusing₂⟩, -⟩ :
      ((Refusing H t ∧ Refusing (held H t) t₁) ∧ Refusing (held (held H t) t₁) t₂) ∧
        Refusing (held (held (held H t) t₁) t₂) t₃ := by
    simpa only [refusing_append, held_append] using refusing
  have hsound : app.Sound (held H t) := by
    refine ((Sound.fresh id profile H).history past (fun a ha => ?_) hrefusing).2
    exact made a (List.mem_append_left _ ha)
  obtain ⟨done, rest, more, hnodes, rfl, hannounced, ht₁, hmore⟩ :=
    (performs_addService adds).past_exports welcome exports
  have hexporting : Refusing (held H t) (app.exporting s.nodes) := by
    rw [ht₁] at hrefusing₁
    exact (refusing_append.1 hrefusing₁).1
  have hfree := hsound.owner_ne hrooted welcome.2 hexporting
  -- the two histories part at the addition, and meet again after the removal
  have hstart := Beside.start hsound.tidy hrooted welcome.2 hfree hnodes
  obtain ⟨u, alone, hu, hbeside, halike⟩ := hstart.history between elsewhere
    fun a ha => made a (List.mem_append_right _ ha)
  obtain ⟨rfl, hremoved, hcalls⟩ := hbeside.removal hrooted hfree hnodes removes smooth
  have hpath : app₂.path = app.path := congrArg Profile.path between.profile
  rw [hpath] at hcalls
  refine ⟨⟨u, hu, halike⟩, fun v last hv answers => ?_, done, rest, hnodes, hannounced, hcalls⟩
  obtain ⟨rfl, rfl⟩ := hu.unique hv ((Script.map_answer_eq halike).symm.trans answers.symm)
  have hadded : held (held H t) t₁ \ s.objects = held H t := by
    rw [ht₁, held_append, held_of_unmoved hmore, held_exporting_sdiff hexporting]
  obtain ⟨hurefusing, huheld⟩ := held_alikeBut (owner_of_mem_objects hrooted) hrefusing₂ halike
  rw [hadded] at hurefusing huheld
  refine ⟨rfl, hurefusing, ?_⟩
  rw [huheld, held_append, held_append, hremoved]

/-- What goes on between a late addition and its removal. -/
def meanwhile : List Act :=
  [.add Sample.heartRate, .remove Sample.heartRate, .add Sample.heartRate]

/-- Answers that let the exports of a service succeed, and the announcement of its second node
fail. -/
def lateAnswers : List Answer := List.replicate 5 (.ok ()) ++ [Sample.failure]

/-- The hypotheses are satisfiable: an addition fails late, with two of three nodes listed, and is
undone after some other acts. -/
theorem remove_undoes_add_late :
    let launched := play Sample.answering (fresh 0 Sample.profile) [.run] []
    let added := (launched.2.1.script (addService Sample.battery)).record Sample.answering
      lateAnswers
    let between := play Sample.answering added.2.1.2 meanwhile []
    let removed := (between.2.1.script (removeService Sample.battery)).record Sample.answering []
    added.2.1.2.directory.keys = [Sample.batteryPath, Sample.levelPath] ∧
      Undone Sample.battery meanwhile (held ∅ launched.1) added.1 between.1 removed.1 launched.2.1
        removed.2.1.2 := by
  refine ⟨by decide, remove_undoes_add (history_play _ _ [.run] _) ?_ Sample.made_battery
    ⟨by decide, by decide⟩ (performs_record _ _ (addService Sample.battery) _) (by decide)
    (history_play _ _ meanwhile _) ?_ (performs_record _ _ (removeService Sample.battery) _)
    (by decide) (by decide)⟩
  · intro a ha
    simp only [meanwhile, List.cons_append, List.nil_append, List.mem_cons, List.not_mem_nil,
      or_false] at ha
    rcases ha with rfl | rfl | rfl | rfl
    · trivial
    all_goals exact ⟨_, Sample.made_heartRate⟩
  · intro a ha
    simp only [meanwhile, List.mem_cons, List.not_mem_nil, or_false] at ha
    rcases ha with rfl | rfl | rfl
    all_goals exact (by decide : Sample.heartRate.path ≠ Sample.battery.path)

end Application
end GattServer
