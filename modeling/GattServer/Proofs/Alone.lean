/-
# An application alone on its connection

An application may have a connection to itself, apart from peers that call methods.  Its object
manager is then the only one, at the path of the application, and it is exported only while the
application runs (`Application.running_of_manages`).  It stays there unless an object is withdrawn
from a path that it lies within, which may be an advertisement or a node of a service that was
created elsewhere (`Application.manages_of_running`).

Within one act, nothing that is below the object manager is exported or withdrawn after the object
manager may have been taken along, since nodes are withdrawn children first
(`Application.ordered_of_performs`).  So the signals that an act brings about depend only on whether
the object manager was there before.
-/

import GattServer.Proofs.Conveyance
import GattServer.Proofs.Subjects
import GattServer.Proofs.Undo

namespace GattServer

/-! ### The object manager -/

/-- Below a path there are no nodes but those on the way to advertisements. -/
def ObjectTree.Clear (root : ObjectPath) (t : ObjectTree) : Prop :=
  ∀ q, (t.at? q).isSome → q.IsBelow root → advertisementPath.IsWithin q

theorem ObjectTree.manages_bare (q : ObjectPath) : bare.manages q = false := by
  rw [manages, object?_bare]
  rfl

theorem ObjectTree.clear_bare (root : ObjectPath) : bare.Clear root := by
  intro q hq hbelow
  by_cases hroot : q = .root
  · rw [hroot]
    exact List.nil_prefix
  · rw [at?, bare, FinMap.find?_insert_of_ne _ _ hroot] at hq
    cases hq

theorem Connection.settled_clear {root : ObjectPath} : Settled fun k => k.objects.Clear root := by
  intro k m clear
  rcases k.receive_objects m with hsame | ⟨notifying, hmodified⟩
  · rwa [hsame]
  · intro q hq
    rw [hmodified, ObjectTree.at?_modify] at hq
    exact clear q hq

/-- Calls that export nothing but advertisements keep it so. -/
theorem Connection.clear_perform {root : ObjectPath} {k : Connection} {daemon : Daemon} {c : Call}
    (clear : k.objects.Clear root) (done : (k.perform daemon c).answer = .ok ())
    (place : ∀ q o, c = .exportObject q o → q = advertisementPath) :
    (k.perform daemon c).connection.objects.Clear root := by
  by_cases hdetached : c.Detached
  · rwa [perform_of_detached hdetached]
  intro q hq hbelow
  cases c with
  | exportObject path o =>
    obtain rfl := place path o rfl
    rw [(perform_exportObject done).2] at hq
    rcases ObjectTree.at?_put hq with hold | hway
    · exact clear q hold hbelow
    · exact hway
  | withdrawObject path kind =>
    rw [perform_withdrawObject done] at hq
    exact clear q (ObjectTree.at?_remove hq) hbelow
  | updateValue path value =>
    rw [perform_updateValue done, ObjectTree.at?_modify] at hq
    exact clear q hq hbelow
  | _ => exact absurd trivial hdetached

namespace Application

open Connection (Conveys settled_clear clear_perform)

variable {id : AppId} {profile : Profile} {app app' : Application} {a : Act} {acts : List Act}
  {s : Service} {t : List (Exchange Application)} {r : Answer} {roots : ObjectPath → Prop}
  {root q : ObjectPath} {k : Connection} {ms : List Message} {nodes : List Node}

/-- Its object manager is the only one. -/
theorem Orderly.onlyAt (h : Orderly roots t app) (conveyed : Connection.fresh.Conveys t ms k) :
    k.objects.OnlyAt app.path := by
  refine conveyed.onlyAt (fun e he q o hcall hkind => ?_) fun q hq => ?_
  · have hregards := h.regards e he
    rw [hcall, Call.Regards, hkind] at hregards
    exact hregards.eq_of_manager
  · rw [Connection.fresh, ObjectTree.manages_bare] at hq
    cases hq

/-- While an object manager is exported, the application is running. -/
theorem running_of_manages (past : (fresh id profile).History acts t app)
    (conveyed : Connection.fresh.Conveys t ms k) (h : k.objects.manages q = true) :
    app.running = true := by
  cases stage_of_history past with
  | waiting bare early =>
    have hfresh := conveyed.manages_of (fun e he => (early e he).quiet) h
    rw [Connection.fresh, ObjectTree.manages_bare] at hfresh
    cases hfresh
  | launched split launch leads running => exact running

/-- **Its object manager stays** once it was exported, if all services were created below it and
advertisements are apart. -/
theorem manages_of_running (past : (fresh id profile).History acts t app)
    (own : ∀ a ∈ acts, a.Uses (Service.Made profile.path))
    (apart : ¬ profile.path.IsWithin advertisementPath)
    (conveyed : Connection.fresh.Conveys t ms k) (running : app.running = true) :
    k.objects.manages profile.path = true := by
  have orderly : Orderly (· = profile.path) t app :=
    orderly_of_history past fun a ha => (own a ha).imp fun _ hmade => ⟨_, rfl, hmade⟩
  have hpath : app.path = profile.path := congrArg Profile.path past.profile
  cases stage_of_history past with
  | waiting bare early =>
    rw [bare.idle] at running
    cases running
  | @launched before after e split launch leads running =>
    -- one exchange exported it, and all later ones spare it
    subst split
    obtain ⟨k₁, _, _, -, -, hrest⟩ := conveyed.split
    obtain ⟨k₂, _, _, -, hlaunch, hlater⟩ := Conveys.split (t := [e]) hrest
    have hmanages := hlaunch.manages_of_exported leads.place rfl launch.2
    rw [hlater.manages_eq leads.once fun f hf => ?_, hmanages]
    have hregards := orderly.regards f
      (List.mem_append_right _ (List.mem_cons_of_mem _ hf))
    rw [hpath] at hregards
    cases hcall : f.call with
    | withdrawObject q kind =>
      rw [hcall] at hregards
      exact hregards.1.not_isWithin hregards.2 apart
    | updateValue => exact fun h => nomatch (Prod.mk.inj h).2
    | _ => trivial

/-- Before an application runs, nothing is exported but advertisements. -/
theorem Orderly.eq_of_early {e : Exchange Application} {o : Object} (h : Orderly roots t app)
    (he : e ∈ t) (early : e.Early) (succeeded : e.Succeeded) (hcall : e.call = .exportObject q o) :
    q = advertisementPath := by
  have hnode : o.kind.isNode = false := by
    have hpreliminary := early.preliminary
    rwa [hcall] at hpreliminary
  have hregards := h.regards e he
  rw [hcall, Call.Regards] at hregards
  cases hkind : o.kind with
  | advertisement =>
    rw [hkind] at hregards
    exact hregards.eq_of_advertisement
  | objectManager =>
    refine absurd ⟨?_, succeeded⟩ early.quiet
    rw [hcall]
    exact decide_eq_true hkind
  | service | characteristic | descriptor =>
    rw [hkind] at hnode
    cases hnode

/-- Before an application runs, nothing is below it but what is on the way to its advertisement. -/
theorem Orderly.clear (h : Orderly roots t app) (past : (fresh id profile).History acts t app)
    (conveyed : Connection.fresh.Conveys t ms k) (idle : app.running = false) :
    k.objects.Clear root := by
  cases stage_of_history past with
  | waiting bare early =>
    refine conveyed.keeps settled_clear (fun e he k daemon clear done succeeded => ?_)
      (ObjectTree.clear_bare root)
    exact clear_perform clear done fun q o hcall => h.eq_of_early he (early e he) succeeded hcall
  | launched split launch leads running =>
    rw [running] at idle
    cases idle

/-! ### The order of the calls -/

/-- **A service can be withdrawn below an object manager**, children first, before the object
manager goes. -/
theorem pairwise_withdrawn (hs : s.Rooted q) :
    (s.nodes.reverse.map Node.withdrawn).Pairwise (Call.Precedes root) := by
  rw [List.pairwise_map, List.pairwise_reverse]
  refine hs.pairwise_nodes.imp fun {m n} hbelow => ?_
  by_cases hspares : n.withdrawn.Spares root .objectManager
  · exact Or.inl hspares
  · -- what lies below the object manager then lies below `n`, and was withdrawn before
    have hwithin : root.IsWithin n.path := not_not.1 hspares
    refine Or.inr ?_
    rintro ⟨x, hx, hunder, hne⟩
    obtain rfl : m.pair = x := Option.some.inj hx
    refine hbelow ⟨hwithin.trans hunder, fun heq => hne ?_⟩
    have hback : root.IsWithin m.path := heq.symm ▸ hwithin
    exact hunder.antisymm hback

theorem spares_exporting : ∀ c ∈ (app.exporting nodes).map Exchange.call,
    c.Spares root .objectManager := by
  intro c hc
  obtain ⟨e, he, rfl⟩ := List.mem_map.1 hc
  obtain ⟨n, -, rfl⟩ := mem_exporting he
  trivial

theorem spares_announcing : ∀ c ∈ (app.announcing nodes).map Exchange.call,
    c.Spares root .objectManager := by
  intro c hc
  obtain ⟨e, he, rfl⟩ := List.mem_map.1 hc
  obtain ⟨before, n, after, -, rfl⟩ := mem_announcing he
  trivial

theorem spares_retracting : ∀ c ∈ (app.retracting nodes).map Exchange.call,
    c.Spares root .objectManager := by
  intro c hc
  obtain ⟨e, he, rfl⟩ := List.mem_map.1 hc
  obtain ⟨before, n, after, interfaces, -, rfl⟩ := mem_retracting he
  trivial

/-- The calls of an addition are in order. -/
theorem Addition.ordered (course : Addition app s t r app') (hs : s.Rooted q) :
    (t.map Exchange.call).Pairwise (Call.Precedes root) := by
  cases course with
  | refused => exact .nil
  | @rolledBack done rest n e back welcome nodes withdrawals =>
    have hback : back.map Exchange.call = done.reverse.map Node.withdrawn := by
      have hcalls := congrArg (List.map Prod.snd) withdrawals
      simpa only [List.map_map, Function.comp_def, Exchange.question] using hcalls
    have hsublist : done.reverse.Sublist s.nodes.reverse := by
      rw [nodes, List.reverse_append]
      exact List.sublist_append_right _ _
    rw [List.map_append, List.map_cons, hback]
    refine Call.pairwise_append_of_spares spares_exporting (Call.pairwise_cons_of_spares trivial ?_)
    exact (pairwise_withdrawn hs).sublist (hsublist.map _)
  | unpublished =>
    rw [List.map_append]
    exact Call.pairwise_append_of_spares spares_exporting (List.pairwise_singleton _ _)
  | unannounced =>
    rw [List.map_append, List.map_cons, List.map_append]
    refine Call.pairwise_append_of_spares spares_exporting (Call.pairwise_cons_of_spares trivial ?_)
    exact Call.pairwise_append_of_spares spares_announcing (List.pairwise_singleton _ _)
  | completed =>
    rw [List.map_append, List.map_cons]
    exact Call.pairwise_append_of_spares spares_exporting
      (Call.pairwise_cons_of_spares trivial (Call.pairwise_of_spares spares_announcing))

/-- The calls of a removal are in order. -/
theorem Removal.ordered (course : Removal app s t r app') (tidy : app.Tidy roots) :
    (t.map Exchange.call).Pairwise (Call.Precedes root) := by
  have hlive {v : Service} (found : app.service? s.path = some v) :
      (v.nodes.reverse.map Node.withdrawn).Pairwise (Call.Precedes root) := by
    obtain ⟨q, -, hrooted⟩ := tidy.rooted v (mem_of_service? found).1
    exact pairwise_withdrawn hrooted
  cases course with
  | absent => exact .nil
  | interrupted =>
    rw [List.map_append]
    exact Call.pairwise_append_of_spares spares_retracting (List.pairwise_singleton _ _)
  | @stuck v done rest n e found nodes =>
    rw [List.map_append, List.map_append, calls_withdrawing]
    refine Call.pairwise_append_of_spares spares_retracting ((hlive found).sublist ?_)
    rw [nodes, List.map_append]
    exact (List.Sublist.refl _).append (List.singleton_sublist.2 List.mem_cons_self)
  | withdrawn found =>
    rw [List.map_append, List.map_append, calls_withdrawing]
    refine Call.pairwise_append_of_spares spares_retracting
      (List.pairwise_append.2 ⟨hlive found, List.pairwise_singleton _ _, fun c _ d hd => ?_⟩)
    rw [List.mem_singleton.1 hd]
    exact Or.inr fun ⟨x, hx, _⟩ => nomatch hx

/-- **The calls of an act are in order**: none that is about an object below the object manager
comes after one that may take the object manager along. -/
theorem ordered_of_performs (performs : app.Performs a.operation t r app') (tidy : app.Tidy roots)
    (made : a.Uses fun s => ∃ root, s.Made root) :
    (t.map Exchange.call).Pairwise (Call.Precedes root) := by
  cases a with
  | run => cases performs_run performs <;> simp [Call.Precedes, Call.Spares]
  | create properties advertised =>
    obtain ⟨rfl, -⟩ := performs_create performs
    exact .nil
  | add s =>
    obtain ⟨q, hmade⟩ := made
    exact (performs_addService performs).ordered hmade.rooted
  | remove s => exact (performs_removeService performs).ordered tidy
  | update path value =>
    rcases performs_updateValue performs with ⟨-, rfl, -, -⟩ | ⟨services, -, -, rfl⟩
    · exact .nil
    · exact List.pairwise_singleton _ _
  | start deviceName =>
    cases performs_startAdvertising performs <;>
      simp [Call.Precedes, Call.Spares, exportedAdvertisement]
  | stop => cases performs_stopAdvertising performs <;> simp [Call.Precedes, Call.Spares]

end Application
end GattServer
