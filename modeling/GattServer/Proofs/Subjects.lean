/-
# What the calls of an application are about

All that an application exports or withdraws is its own: its object manager, an advertisement, or a
node of a service (`Application.orderly_of_history`).  In particular there is one path for its
object manager and one for advertisements, whatever services are handed to it.
-/

import GattServer.Proofs.Exclusion
import GattServer.Proofs.Manager
import GattServer.Proofs.Steps

namespace GattServer

/-- The objects that the application at a path exports and withdraws: its object manager,
advertisements, and the nodes of services that were created below some roots. -/
inductive Subject (roots : ObjectPath → Prop) (path : ObjectPath) :
    ObjectPath × ObjectKind → Prop where
  | manager : Subject roots path (path, .objectManager)
  | advertisement : Subject roots path advertisementPair
  | node {root : ObjectPath} {s : Service} {n : Node} (hroot : roots root) (hs : s.Rooted root)
    (hn : n ∈ s.nodes) : Subject roots path n.pair

namespace Subject

variable {roots : ObjectPath → Prop} {path q : ObjectPath} {kind : ObjectKind}

theorem eq_of_manager (h : Subject roots path (q, .objectManager)) : q = path := by
  generalize hx : (q, ObjectKind.objectManager) = x at h
  cases h with
  | manager => exact congrArg Prod.fst hx
  | advertisement => cases hx
  | @node _ s n =>
    have hkind := n.isNode_kind
    rw [← show ObjectKind.objectManager = n.kind from congrArg Prod.snd hx] at hkind
    cases hkind

theorem eq_of_advertisement (h : Subject roots path (q, .advertisement)) :
    q = advertisementPath := by
  generalize hx : (q, ObjectKind.advertisement) = x at h
  cases h with
  | manager => cases hx
  | advertisement => exact congrArg Prod.fst hx
  | @node _ s n =>
    have hkind := n.isNode_kind
    rw [← show ObjectKind.advertisement = n.kind from congrArg Prod.snd hx] at hkind
    cases hkind

/-- The object manager does not lie within an object of another kind, if all services were created
below it and advertisements are apart. -/
theorem not_isWithin (h : Subject (· = path) path (q, kind)) (other : kind ≠ .objectManager)
    (apart : ¬ path.IsWithin advertisementPath) : ¬ path.IsWithin q := by
  generalize hx : (q, kind) = x at h
  cases h with
  | manager => exact absurd (congrArg Prod.snd hx) other
  | advertisement =>
    obtain ⟨rfl, -⟩ := Prod.mk.inj hx
    exact apart
  | node hroot hs hn =>
    obtain ⟨rfl, -⟩ := Prod.mk.inj hx
    subst hroot
    obtain ⟨hwithin, hne⟩ := hs.isBelow hn
    exact fun h => hne (hwithin.antisymm h)

end Subject

/-- A call of the application at a path: it exports its own and withdraws its own, except for the
object manager. -/
def Call.Regards (roots : ObjectPath → Prop) (path : ObjectPath) : Call → Prop
  | .exportObject q o => Subject roots path (q, o.kind)
  | .withdrawObject q kind => Subject roots path (q, kind) ∧ kind ≠ .objectManager
  | _ => True

namespace Call.Regards

variable {roots : ObjectPath → Prop} {path : ObjectPath} {c : Call}

theorem of_detached (h : c.object? = none) : c.Regards roots path := by
  cases c with
  | exportObject | withdrawObject => cases h
  | _ => trivial

theorem of_node {n : Node} (h : c.object? = some n.pair) (subject : Subject roots path n.pair) :
    c.Regards roots path := by
  cases c with
  | exportObject q o =>
    obtain ⟨rfl, hkind⟩ := Prod.mk.inj (Option.some.inj h)
    rw [Regards, hkind]
    exact subject
  | withdrawObject q kind =>
    obtain ⟨rfl, rfl⟩ := Prod.mk.inj (Option.some.inj h)
    refine ⟨subject, fun hkind => ?_⟩
    have hnode := n.isNode_kind
    rw [hkind] at hnode
    cases hnode
  | _ => trivial

end Call.Regards

namespace Application

variable {id : AppId} {profile : Profile} {app app' : Application} {a : Act} {acts : List Act}
  {s : Service} {t past : List (Exchange Application)} {r : Answer} {roots : ObjectPath → Prop}
  {root : ObjectPath}

/-- **An application has an orderly past**: its live services are well-formed, and all that it has
exported or withdrawn is its own. -/
structure Orderly (roots : ObjectPath → Prop) (past : List (Exchange Application))
    (app : Application) : Prop where
  tidy : app.Tidy roots
  active : ∀ active ∈ app.advertisement, active.path = advertisementPath
  regards : ∀ e ∈ past, e.call.Regards roots app.path

/-- **Every act** keeps the past orderly. -/
theorem Orderly.performs (h : Orderly roots past app)
    (made : a.Uses fun s => ∃ root, roots root ∧ s.Made root)
    (performs : app.Performs a.operation t r app') : Orderly roots (past ++ t) app' := by
  have hpath : app'.path = app.path := congrArg Profile.path (performs_profile performs)
  suffices app'.Tidy roots ∧ (∀ active ∈ app'.advertisement, active.path = advertisementPath) ∧
      ∀ e ∈ t, e.call.Regards roots app.path by
    obtain ⟨tidy, active, regards⟩ := this
    exact ⟨tidy, active, hpath ▸ List.forall_mem_append.2 ⟨h.regards, regards⟩⟩
  cases a with
  | run =>
    cases performs_run performs with
    | again => exact ⟨h.tidy, h.active, by simp⟩
    | nameless => exact ⟨h.tidy, h.active, by simp [Call.Regards]⟩
    | unexported | launched =>
      refine ⟨h.tidy.of_services rfl, h.active, ?_⟩
      simpa [Call.Regards, Object.kind] using Subject.manager
  | create properties advertised =>
    obtain ⟨rfl, created, rfl⟩ := performs_create performs
    exact ⟨h.tidy.of_services rfl, h.active, by simp⟩
  | add s =>
    obtain ⟨root, hroot, hmade⟩ := made
    have course := performs_addService performs
    refine ⟨course.tidy h.tidy hroot hmade.rooted, by cases course <;> exact h.active, ?_⟩
    intro e he
    rcases course.object?_eq he with hnone | ⟨n, hn, hobject⟩
    · exact .of_detached hnone
    · exact .of_node hobject (.node hroot hmade.rooted hn)
  | remove s =>
    have course := performs_removeService performs
    refine ⟨course.tidy h.tidy, by cases course <;> exact h.active, ?_⟩
    intro e he
    rcases course.object?_eq he with hnone | ⟨n, hn, hobject⟩
    · exact .of_detached hnone
    · obtain ⟨v, hv, hnv⟩ := mem_nodes.1 hn
      obtain ⟨root, hroot, hrooted⟩ := h.tidy.rooted v hv
      exact .of_node hobject (.node hroot hrooted hnv)
  | update path value =>
    rcases performs_updateValue performs with ⟨-, rfl, -, rfl⟩ | ⟨services, found, rfl, rfl⟩
    · exact ⟨h.tidy, h.active, by simp⟩
    · exact ⟨h.tidy.showing found, h.active, by simp [Call.Regards]⟩
  | start deviceName =>
    cases performs_startAdvertising performs with
    | active | malformed => exact ⟨h.tidy, h.active, by simp⟩
    | unexported =>
      exact ⟨h.tidy, h.active, List.forall_mem_singleton.2 .advertisement⟩
    | exported =>
      refine ⟨h.tidy.of_services rfl, ?_, List.forall_mem_cons.2 ⟨.advertisement, ?_⟩⟩
      · rintro active ⟨⟩
        rfl
      · exact List.forall_mem_singleton.2 trivial
  | stop =>
    cases performs_stopAdvertising performs with
    | inactive => exact ⟨h.tidy, h.active, by simp⟩
    | stopped hactive =>
      have hpath := h.active _ hactive
      refine ⟨h.tidy.of_services rfl, fun _ h => absurd h (Option.not_mem_none _),
        List.forall_mem_cons.2 ⟨trivial, ?_⟩⟩
      rw [hpath]
      exact List.forall_mem_singleton.2 ⟨.advertisement, ObjectKind.noConfusion⟩

theorem orderly_of_history (past : (fresh id profile).History acts t app)
    (made : ∀ a ∈ acts, a.Uses fun s => ∃ root, roots root ∧ s.Made root) : Orderly roots t app :=
  past.induct (I := Orderly roots) (fun made h performs => h.performs made performs) made
    { tidy := Tidy.fresh id profile
      active := nofun
      regards := fun _ he => absurd he List.not_mem_nil }

end Application
end GattServer
