/-
# One service more

Two applications are side by side if one of them is the other with a service taken away: from its
live services, and from its directory whatever that service owns (`Application.Beside`).  Operations
on other services do the same in both, call by call, except that the published tree shows the
service or not (`Application.Beside.parallel`).  So whatever the one went through, the other one can
go through with the same answers, and in the end they are side by side again
(`Application.Beside.history`).

For this, taking the entries of the service away has to commute with every change of the directory
that is about other services, in the order of the entries too.
-/

import GattServer.Proofs.History
import GattServer.Proofs.Lockstep
import GattServer.Proofs.Steps

namespace GattServer

/-! ### Maps with keys dropped -/

namespace FinMap

variable {κ ν : Type} {m n : FinMap κ ν} {p q : κ → Bool} {k : κ} {v : ν}

theorem ext_entries (h : m.entries = n.entries) : m = n := by
  cases m
  cases n
  cases h
  rfl

theorem mem_keys_filterKeys : k ∈ (m.filterKeys p).keys ↔ k ∈ m.keys ∧ p k := by
  simp only [keys, filterKeys, List.mem_map, List.mem_filter]
  constructor
  · rintro ⟨e, ⟨he, hp⟩, rfl⟩
    exact ⟨⟨e, he, rfl⟩, hp⟩
  · rintro ⟨⟨e, he, rfl⟩, hp⟩
    exact ⟨e, ⟨he, hp⟩, rfl⟩

theorem filterKeys_congr (h : ∀ k ∈ m.keys, p k = q k) : m.filterKeys p = m.filterKeys q :=
  ext_entries (List.filter_congr fun _ he => h _ (List.mem_map_of_mem he))

theorem filterKeys_eq_self (h : ∀ k ∈ m.keys, p k) : m.filterKeys p = m :=
  ext_entries (List.filter_eq_self.2 fun _ he => h _ (List.mem_map_of_mem he))

theorem filterKeys_comm : (m.filterKeys p).filterKeys q = (m.filterKeys q).filterKeys p :=
  ext_entries (List.filter_comm _ _ _)

variable [DecidableEq κ]

theorem filterKeys_erase : (m.erase k).filterKeys p = (m.filterKeys p).erase k := filterKeys_comm

theorem filterKeys_modify {f : ν → ν} :
    (m.modify k f).filterKeys p = (m.filterKeys p).modify k f := by
  refine ext_entries ?_
  simp only [filterKeys, modify, List.filter_map]
  congr 2
  funext e
  rw [Function.comp_apply]
  split_ifs <;> rfl

theorem entries_insert_of_notMem (h : k ∉ m.keys) :
    (m.insert k v).entries = m.entries ++ [(k, v)] := by
  rw [insert, dif_neg h]

theorem filterKeys_insert_of_pos (h : p k) :
    (m.insert k v).filterKeys p = (m.filterKeys p).insert k v := by
  by_cases hk : k ∈ m.keys
  · rw [insert, dif_pos hk, insert, dif_pos (mem_keys_filterKeys.2 ⟨hk, h⟩), filterKeys_modify]
  · refine ext_entries ?_
    rw [entries_insert_of_notMem fun hmem => hk (mem_keys_filterKeys.1 hmem).1]
    show List.filter _ (m.insert k v).entries = _
    rw [entries_insert_of_notMem hk, List.filter_append]
    simp [filterKeys, h]

theorem filterKeys_insert_of_neg (h : p k = false) :
    (m.insert k v).filterKeys p = m.filterKeys p := by
  by_cases hk : k ∈ m.keys
  · rw [insert, dif_pos hk, filterKeys_modify]
    refine modify_of_fixed fun w hw => ?_
    rw [find?_filterKeys, h] at hw
    cases hw
  · refine ext_entries ?_
    show List.filter _ (m.insert k v).entries = _
    rw [entries_insert_of_notMem hk, List.filter_append]
    simp [filterKeys, h]

end FinMap

/-- Two calls that are the same and not about an object under the path of a service, or that publish
two descriptions of the tree. -/
def Call.AlikeBut (p : ObjectPath) (c c' : Call) : Prop :=
  (c = c' ∧ ∀ x ∈ c.object?, x.1.owner ≠ p) ∨
    ∃ root tree tree', c = .publishTree root tree ∧ c' = .publishTree root tree'

/-- An act on services other than a given one. -/
def Act.Elsewhere (s : Service) : Act → Prop
  | .add v | .remove v => v.path ≠ s.path
  | .update path _ => path ∉ s.nodes.map Node.path
  | .run | .create _ _ | .start _ | .stop => False

namespace Application

variable {app app' mid : Application} {s v : Service} {n : Node} {a : Act} {acts : List Act}
  {nodes done : List Node} {t : List (Exchange Application)} {r : Answer} {p q : ObjectPath}
  {shown : ObjectPath → Option InterfaceMap} {value : List UInt8}

/-! ### An application without a service -/

/-- The application without the live service of a path, and with nothing listed that it owns. -/
def without (app : Application) (p : ObjectPath) : Application :=
  { app with
    services := app.services.filter fun s => s.path ≠ p
    directory := app.directory.filterKeys fun q => q.owner ≠ p }

theorem service?_without (h : q ≠ p) : (app.without p).service? q = app.service? q := by
  show (app.services.filter _).find? _ = app.services.find? _
  rw [List.find?_filter]
  congr 1
  funext s
  by_cases hs : s.path = q
  · simp [hs, h]
  · simp [hs]

theorem without_adopt (h : v.path ≠ p) : (app.adopt v).without p = (app.without p).adopt v := by
  simp [without, adopt, List.filter_append, h]

theorem without_enter (h : n.path.owner ≠ p) :
    (app.enter [n]).without p = (app.without p).enter [n] := by
  have hkey : decide (n.path.owner ≠ p) = true := by simpa using h
  simp only [without, enter, List.foldl_cons, List.foldl_nil]
  congr 1
  exact FinMap.filterKeys_insert_of_pos hkey

theorem without_leave : (app.leave [n]).without p = (app.without p).leave [n] := by
  simp only [without, leave, List.foldl_cons, List.foldl_nil]
  rw [FinMap.filterKeys_erase]

theorem find?_without (h : q.owner ≠ p) :
    (app.without p).directory.find? q = app.directory.find? q := by
  show (app.directory.filterKeys _).find? q = _
  rw [FinMap.find?_filterKeys, if_pos (by simpa using h)]

theorem Tidy.without {roots : ObjectPath → Prop} (h : app.Tidy roots) :
    (app.without p).Tidy roots where
  rooted v hv := h.rooted v (List.mem_filter.1 hv).1
  distinct := h.distinct.sublist (List.filter_sublist.map _)

theorem without_disown {roots : ObjectPath → Prop} (h : app.Tidy roots) :
    (app.disown q).without p = (app.without p).disown q := by
  have hservices : ((app.disown q).services.filter fun s => s.path ≠ p) =
      ((app.without p).disown q).services := by
    rw [h.services_disown, h.without.services_disown]
    exact List.filter_comm _ _ _
  have hwithout : (app.disown q).without p = { app.without p with
      services := (app.disown q).services.filter fun s => s.path ≠ p } := rfl
  rw [hwithout, hservices]
  rfl

theorem setValueIn?_filter {ss : List Service}
    (h : ∀ s ∈ ss, s.path = p → s.setValue? q value = none) :
    setValueIn? q value (ss.filter fun s => s.path ≠ p) =
      (setValueIn? q value ss).map (List.filter fun s => s.path ≠ p) := by
  induction ss with
  | nil => rfl
  | cons s ss ih =>
    have hrest := ih fun v hv => h v (List.mem_cons_of_mem _ hv)
    by_cases hs : s.path = p
    · rw [List.filter_cons_of_neg (by simpa using hs), hrest, setValueIn?,
        h s List.mem_cons_self hs]
      cases setValueIn? q value ss with
      | none => rfl
      | some ts => simp [hs]
    · rw [List.filter_cons_of_pos (by simpa using hs), setValueIn?, setValueIn?]
      cases ht : s.setValue? q value with
      | some t => simp [Service.setValue?_path ht, hs]
      | none =>
        rw [hrest]
        cases setValueIn? q value ss with
        | none => rfl
        | some ts => simp [hs]

theorem without_showing {services : List Service} :
    (app.showing q value services).without p =
      (app.without p).showing q value (services.filter fun s => s.path ≠ p) := by
  simp only [without, showing, Directory.setProperty_value, FinMap.filterKeys_modify]

/-! ### Side by side -/

/-- An application and the same without one of its live services.  Of what the service owns, a fixed
part is listed. -/
structure Beside (s : Service) (shown : ObjectPath → Option InterfaceMap)
    (app app' : Application) : Prop where
  tidy : app.Tidy fun _ => True
  mem : s ∈ app.services
  listed : ∀ q, q.owner = s.path → app.directory.find? q = shown q
  eq : app' = app.without s.path

namespace Beside

theorem adopt {root : ObjectPath} (h : Beside s shown app app') (hv : v.Rooted root)
    (hne : v.path ≠ s.path) (hnew : app.service? v.path = none) :
    Beside s shown (app.adopt v) (app'.adopt v) where
  tidy := h.tidy.adopt trivial hv hnew
  mem := List.mem_append_left _ h.mem
  listed := h.listed
  eq := by rw [h.eq, without_adopt hne]

theorem enter (h : Beside s shown app app') (hne : n.path.owner ≠ s.path) :
    Beside s shown (app.enter [n]) (app'.enter [n]) where
  tidy := h.tidy.enter
  mem := h.mem
  listed q hq := by
    rw [← h.listed q hq, find?_enter_of_notMem]
    simp only [List.map_cons, List.map_nil, List.mem_singleton]
    rintro rfl
    exact hne hq
  eq := by rw [h.eq, without_enter hne]

theorem leave (h : Beside s shown app app') (hne : n.path.owner ≠ s.path) :
    Beside s shown (app.leave [n]) (app'.leave [n]) where
  tidy := h.tidy.leave
  mem := h.mem
  listed q hq := by
    rw [← h.listed q hq, find?_leave, if_neg]
    simp only [List.map_cons, List.map_nil, List.mem_singleton]
    rintro rfl
    exact hne hq
  eq := by rw [h.eq, without_leave]

theorem disown (h : Beside s shown app app') (hne : q ≠ s.path) :
    Beside s shown (app.disown q) (app'.disown q) where
  tidy := h.tidy.disown
  mem := h.tidy.mem_disown.2 ⟨h.mem, hne.symm⟩
  listed := h.listed
  eq := by rw [h.eq, without_disown h.tidy]

/-- The value that is shown is not one of the service. -/
theorem setValue?_eq_none (h : Beside s shown app app') (hq : q ∉ s.nodes.map Node.path) :
    ∀ v ∈ app.services, v.path = s.path → v.setValue? q value = none := by
  intro v hv hpath
  rw [h.tidy.unique hv h.mem hpath, Service.setValue?, Option.map_eq_none_iff,
    Service.setValueIn?_eq_none]
  rintro c hc rfl
  exact hq (List.mem_map.2 ⟨.characteristic s c, Service.mem_nodes.2 (Or.inr ⟨c, hc, Or.inl rfl⟩),
    rfl⟩)

theorem showing {services : List Service} (h : Beside s shown app app')
    (hq : q ∉ s.nodes.map Node.path) (hset : setValueIn? q value app.services = some services) :
    Beside s shown (app.showing q value services)
      (app'.showing q value (services.filter fun v => v.path ≠ s.path)) := by
  obtain ⟨before, v, after, t, hservices, ht, hnew⟩ := setValueIn?_eq_some hset
  have hv : v ∈ app.services := by simp [hservices]
  have hvs : v.path ≠ s.path := by
    intro hpath
    rw [h.setValue?_eq_none hq v hv hpath] at ht
    cases ht
  obtain ⟨root, -, hrooted⟩ := h.tidy.rooted v hv
  have howner : q.owner ≠ s.path := by
    obtain ⟨c, hc, rfl⟩ := Service.characteristic_of_setValue? ht
    have hnode : Node.characteristic v c ∈ v.nodes :=
      Service.mem_nodes.2 (Or.inr ⟨c, hc, Or.inl rfl⟩)
    exact (hrooted.owner_eq hnode).symm ▸ hvs
  refine ⟨h.tidy.showing hset, ?_, fun p hp => ?_, by rw [h.eq, without_showing]⟩
  · have hmem := h.mem
    rw [hservices, List.mem_append, List.mem_cons] at hmem
    show s ∈ services
    rw [hnew, List.mem_append, List.mem_cons]
    rcases hmem with hmem | rfl | hmem
    · exact Or.inl hmem
    · exact absurd rfl hvs
    · exact Or.inr (Or.inr hmem)
  · have hpq : p ≠ q := fun hpq => howner (hpq ▸ hp)
    rw [find?_showing, if_neg hpq, h.listed p hp]

/-! ### In lockstep -/

theorem publishTree (h : Beside s shown app app') :
    Parallel (Call.AlikeBut s.path) (Beside s shown) app app' publishTree publishTree := by
  refine parallel_get_bind (parallel_ask (Or.inr ⟨app.path, app.tree, app'.tree, rfl, ?_⟩) h)
  rw [h.eq]
  rfl

theorem announce (h : Beside s shown app app') (hne : n.path.owner ≠ s.path) :
    Parallel (Call.AlikeBut s.path) (Beside s shown) app app' (announce n) (announce n) := by
  refine parallel_modify_bind (parallel_get_bind (parallel_ask (Or.inl ⟨?_, ?_⟩) (h.enter hne)))
  · rw [h.eq]
    rfl
  · exact fun x hx => nomatch hx

theorem retract (h : Beside s shown app app') (hne : n.path.owner ≠ s.path) :
    Parallel (Call.AlikeBut s.path) (Beside s shown) app app' (retract n) (retract n) := by
  refine parallel_get_bind ?_
  have hfind : app'.directory.find? n.path = app.directory.find? n.path := by
    rw [h.eq, find?_without hne]
  rw [hfind]
  cases app.directory.find? n.path with
  | none => exact parallel_pure _ h
  | some interfaces =>
    refine parallel_set_bind (parallel_ask (Or.inl ⟨?_, ?_⟩) (h.leave hne))
    · rw [h.eq]
      rfl
    · exact fun x hx => nomatch hx

theorem withdrawn (hne : n.path.owner ≠ s.path) :
    Call.AlikeBut s.path n.withdrawn n.withdrawn := by
  refine Or.inl ⟨rfl, fun x hx => ?_⟩
  rw [n.object?_withdrawn, Option.mem_some_iff] at hx
  exact hx ▸ hne

/-- Exports change neither state, so they run in lockstep whatever the states have in common. -/
theorem exportFrom {R : Application → Application → Prop} (h : R app app') (hid : app'.id = app.id)
    (hnodes : ∀ n ∈ nodes, n.path.owner ≠ s.path) (hdone : ∀ n ∈ done, n.path.owner ≠ s.path) :
    Parallel (Call.AlikeBut s.path) R app app' (exportFrom done nodes) (exportFrom done nodes) := by
  induction nodes generalizing done with
  | nil => exact parallel_pure _ h
  | cons n ns ih =>
    have hn := hnodes n List.mem_cons_self
    refine parallel_get_bind (parallel_attempt_bind (Or.inl ⟨?_, fun x hx => ?_⟩) fun answer => ?_)
    · rw [hid]
    · have hobject : (n.exported app.id).object? = some x := hx
      rw [n.object?_exported, Option.some.injEq] at hobject
      exact hobject ▸ hn
    · cases answer with
      | ok =>
        refine ih (fun m hm => hnodes m (List.mem_cons_of_mem _ hm)) fun m hm => ?_
        rcases List.mem_cons.1 hm with rfl | hm
        · exact hn
        · exact hdone m hm
      | error e =>
        refine Parallel.bind (parallel_forM (fun m hm mid mid' hmid => ?_) h)
          fun _ mid mid' hmid => parallel_throw e hmid
        exact parallel_withdraw (withdrawn (hdone m hm)) hmid

theorem addService {root : ObjectPath} (h : Beside s shown app app') (hv : v.Rooted root)
    (hne : v.path ≠ s.path) :
    Parallel (Call.AlikeBut s.path) (Beside s shown) app app' (addService v) (addService v) := by
  have hnodes : ∀ n ∈ v.nodes, n.path.owner ≠ s.path := fun n hn => by
    rwa [hv.owner_eq hn]
  have hrunning : app'.running = app.running := by
    rw [h.eq]
    rfl
  have hlive : app'.service? v.path = app.service? v.path := by
    rw [h.eq, service?_without hne]
  refine parallel_get_bind ?_
  rw [hrunning, hlive]
  split_ifs with hidle hadded
  · exact parallel_throw _ h
  · exact parallel_throw _ h
  · have hnew : app.service? v.path = none := by simpa using hadded
    have hid : app'.id = app.id := by
      rw [h.eq]
      rfl
    -- adopting the service needs that its path is still free after the exports
    have hexports : Parallel (Call.AlikeBut s.path) (fun mid mid' => mid = app ∧ mid' = app') app
        app' (Application.exportFrom [] v.nodes) (Application.exportFrom [] v.nodes) :=
      exportFrom ⟨rfl, rfl⟩ hid hnodes fun n hn => absurd hn List.not_mem_nil
    refine hexports.bind_of ?_ ?_
    · rintro _ _ ⟨rfl, rfl⟩
      exact h
    · rintro - _ _ ⟨rfl, rfl⟩
      refine parallel_modify_bind ((h.adopt hv hne hnew).publishTree.bind fun _ mid mid' hmid => ?_)
      exact parallel_forM (fun n hn last last' hlast => hlast.announce (hnodes n hn)) hmid

theorem removeService (h : Beside s shown app app') (hne : v.path ≠ s.path) :
    Parallel (Call.AlikeBut s.path) (Beside s shown) app app' (removeService v)
      (removeService v) := by
  have hlive : app'.service? v.path = app.service? v.path := by
    rw [h.eq, service?_without hne]
  refine parallel_get_bind ?_
  rw [hlive]
  cases found : app.service? v.path with
  | none => exact parallel_pure _ h
  | some live =>
    obtain ⟨hmem, hpath⟩ := mem_of_service? found
    obtain ⟨root, -, hrooted⟩ := h.tidy.rooted live hmem
    have hnodes : ∀ n ∈ live.nodes.reverse, n.path.owner ≠ s.path := fun n hn => by
      rw [hrooted.owner_eq (List.mem_reverse.1 hn), hpath]
      exact hne
    refine parallel_set_bind (Parallel.bind (parallel_forM (fun n hn mid mid' hmid => ?_)
      (h.disown hne)) fun _ mid mid' hmid => Parallel.bind (parallel_forM ?_ hmid)
        fun _ last last' hlast => hlast.publishTree)
    · exact hmid.retract (hnodes n hn)
    · exact fun n hn mid mid' hmid => parallel_ask (withdrawn (hnodes n hn)) hmid

theorem updateValue (h : Beside s shown app app') (hq : q ∉ s.nodes.map Node.path) :
    Parallel (Call.AlikeBut s.path) (Beside s shown) app app' (updateValue q value)
      (updateValue q value) := by
  have hset : setValueIn? q value app'.services =
      (setValueIn? q value app.services).map (List.filter fun v => v.path ≠ s.path) := by
    rw [h.eq]
    exact setValueIn?_filter (h.setValue?_eq_none hq)
  refine parallel_get_bind ?_
  rw [hset]
  cases hfound : setValueIn? q value app.services with
  | none => exact parallel_throw _ h
  | some services =>
    refine parallel_set_bind (parallel_ask (Or.inl ⟨rfl, ?_⟩) (h.showing hq hfound))
    exact fun x hx => nomatch hx

/-- **Operations on other services run in lockstep.** -/
theorem parallel (h : Beside s shown app app') (elsewhere : a.Elsewhere s)
    (made : a.Uses fun v => ∃ root, v.Made root) :
    Parallel (Call.AlikeBut s.path) (Beside s shown) app app' a.operation a.operation := by
  cases a with
  | run | create | start | stop => exact elsewhere.elim
  | add v =>
    obtain ⟨root, hmade⟩ := made
    exact h.addService hmade.rooted elsewhere
  | remove v => exact h.removeService elsewhere
  | update path value => exact h.updateValue elsewhere

/-- **What an application goes through, it goes through without the service as well**, with the same
answers, as long as it is about other services. -/
theorem history (h : Beside s shown app app') (past : app.History acts t mid)
    (elsewhere : ∀ a ∈ acts, a.Elsewhere s)
    (made : ∀ a ∈ acts, a.Uses fun v => ∃ root, v.Made root) :
    ∃ u mid', app'.History acts u mid' ∧ Beside s shown mid mid' ∧
      List.Forall₂ (Script.SameAnswer (Call.AlikeBut s.path)) t u := by
  induction past generalizing app' with
  | nil => exact ⟨[], app', .nil, h, .nil⟩
  | @cons app mid last a acts t u r first rest ih =>
    obtain ⟨t', mid', hfirst, hmid, hall⟩ := (h.parallel (elsewhere a List.mem_cons_self)
      (made a List.mem_cons_self)).performs first
    obtain ⟨u', last', hrest, hlast, hall'⟩ := ih hmid
      (fun b hb => elsewhere b (List.mem_cons_of_mem _ hb))
      fun b hb => made b (List.mem_cons_of_mem _ hb)
    exact ⟨t' ++ u', last', .cons hfirst hrest, hlast, List.rel_append hall hall'⟩

end Beside
end Application
end GattServer
