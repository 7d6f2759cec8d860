/-
# What an update changes

A value is stored in two places: with the live characteristic, which an update finds by going
through all live services, and in the entry of the directory that has the same path.  As the nodes
of live services have different paths, there is one characteristic to be found, and as a path tells
the kind of its node, the entry is that of a characteristic.  So the state after an update can be
said without a search (`Application.updated`), and an operation that updates a value makes one call
in that state and ends in it, whatever the answer is (`Application.Tidy.script_updateValue`).

From this the laws of assignments follow: of two updates of one characteristic the last one counts,
and updates of two characteristics can be exchanged (`Application.updated_updated`,
`Application.updated_comm`).

All of this holds in every state that an application gets into, with services that are half
announced or half taken out (`Application.updates_exactly`).
-/

import GattServer.Proofs.Beside
import GattServer.Proofs.Dangling

namespace GattServer

/-! ### Assignments in maps -/

namespace FinMap

variable {κ ν : Type} [DecidableEq κ] {m : FinMap κ ν} {k l : κ} {f g : ν → ν} {v w : ν}

theorem modify_modify : (m.modify k f).modify k g = m.modify k (g ∘ f) := by
  refine ext_entries ?_
  simp only [modify, List.map_map]
  refine List.map_congr_left fun e _ => ?_
  by_cases he : e.1 = k <;> simp [he]

theorem modify_comm (h : k ≠ l) : (m.modify k f).modify l g = (m.modify l g).modify k f := by
  refine ext_entries ?_
  simp only [modify, List.map_map]
  refine List.map_congr_left fun e _ => ?_
  by_cases hk : e.1 = k
  · have hl : e.1 ≠ l := fun hl => h (hk.symm.trans hl)
    simp [hk, h]
  · by_cases hl : e.1 = l <;> simp [hk, hl, Ne.symm h]

theorem insert_of_mem (h : k ∈ m.keys) : m.insert k v = m.modify k fun _ => v := dif_pos h

theorem mem_keys_insert_self : k ∈ (m.insert k v).keys :=
  mem_keys_of_find? (find?_insert_self m k v)

/-- **The last of two values stored under a key counts.** -/
theorem insert_insert : (m.insert k v).insert k w = m.insert k w := by
  rw [insert_of_mem mem_keys_insert_self]
  by_cases hk : k ∈ m.keys
  · rw [insert_of_mem hk, insert_of_mem hk, modify_modify]
    rfl
  · have hother : ∀ e ∈ m.entries, (if e.1 = k then (e.1, w) else e) = e := fun e he =>
      if_neg fun hek => hk (List.mem_map.2 ⟨e, he, hek⟩)
    refine ext_entries ?_
    show (m.insert k v).entries.map _ = _
    rw [entries_insert_of_notMem hk, entries_insert_of_notMem hk, List.map_append,
      List.map_congr_left hother]
    simp

end FinMap

theorem InterfaceMap.withValue_withValue (interfaces : InterfaceMap) (value more : List UInt8) :
    (interfaces.withValue value).withValue more = interfaces.withValue more := by
  rw [withValue, withValue, FinMap.modify_modify, withValue]
  congr 1
  funext properties
  exact FinMap.insert_insert

/-! ### Services with a value replaced -/

/-- The characteristic after an update at a path. -/
def Characteristic.updated (path : ObjectPath) (value : List UInt8) (c : Characteristic) :
    Characteristic :=
  if c.path = path then c.withValue value else c

/-- The service after an update at a path. -/
def Service.updated (path : ObjectPath) (value : List UInt8) (s : Service) : Service :=
  { s with characteristics := s.characteristics.map (Characteristic.updated path value) }

namespace Characteristic

variable {p q : ObjectPath} {value more : List UInt8}

@[simp] theorem path_updated (c : Characteristic) : (c.updated p value).path = c.path := by
  unfold updated
  split <;> rfl

theorem updated_updated (c : Characteristic) :
    (c.updated p value).updated p more = c.updated p more := by
  by_cases hc : c.path = p <;> simp [updated, hc, withValue]

theorem updated_comm (h : p ≠ q) (c : Characteristic) :
    (c.updated p value).updated q more = (c.updated q more).updated p value := by
  by_cases hp : c.path = p
  · have hq : c.path ≠ q := fun hq => h (hp.symm.trans hq)
    simp [updated, hp, h, withValue]
  · by_cases hq : c.path = q <;> simp [updated, hp, hq, Ne.symm h, withValue]

theorem map_updated_of_ne {cs : List Characteristic} (h : ∀ c ∈ cs, c.path ≠ p) :
    cs.map (updated p value) = cs :=
  (List.map_congr_left fun c hc => if_neg (h c hc)).trans (List.map_id' _)

end Characteristic

namespace Service

variable {p q : ObjectPath} {value more : List UInt8}

theorem updated_updated (s : Service) : (s.updated p value).updated p more = s.updated p more := by
  simp only [updated, List.map_map]
  congr 1
  exact List.map_congr_left fun c _ => c.updated_updated

theorem updated_comm (h : p ≠ q) (s : Service) :
    (s.updated p value).updated q more = (s.updated q more).updated p value := by
  simp only [updated, List.map_map]
  congr 1
  exact List.map_congr_left fun c _ => c.updated_comm h

/-- A characteristic of a service lies at a path. -/
def HasCharacteristic (s : Service) (path : ObjectPath) : Prop :=
  ∃ c ∈ s.characteristics, c.path = path

instance {s : Service} {path : ObjectPath} : Decidable (s.HasCharacteristic path) :=
  inferInstanceAs (Decidable (∃ c ∈ s.characteristics, c.path = path))

theorem hasCharacteristic_updated {s : Service} :
    (s.updated p value).HasCharacteristic q ↔ s.HasCharacteristic q := by
  simp [HasCharacteristic, updated]

theorem updated_of_not (s : Service) (h : ¬ s.HasCharacteristic p) : s.updated p value = s := by
  have hmap : s.characteristics.map (Characteristic.updated p value) = s.characteristics :=
    Characteristic.map_updated_of_ne fun c hc hp => h ⟨c, hc, hp⟩
  rw [updated, hmap]

/-- **Where paths differ, replacing the first value at a path is replacing it everywhere.** -/
theorem setValueIn?_eq_map {cs : List Characteristic} (distinct : (cs.map (·.path)).Nodup)
    (h : ∃ c ∈ cs, c.path = p) :
    setValueIn? p value cs = some (cs.map (Characteristic.updated p value)) := by
  induction cs with
  | nil => simp at h
  | cons c cs ih =>
    obtain ⟨hout, hdistinct⟩ := List.nodup_cons.1 distinct
    by_cases hc : c.path = p
    · have hother : ∀ e ∈ cs, e.path ≠ p := fun e he hp =>
        hout (List.mem_map.2 ⟨e, he, hp.trans hc.symm⟩)
      rw [setValueIn?, if_pos hc, List.map_cons, Characteristic.map_updated_of_ne hother,
        Characteristic.updated, if_pos hc]
    · have hlater : ∃ e ∈ cs, e.path = p := by simpa [hc] using h
      rw [setValueIn?, if_neg hc, ih hdistinct hlater, List.map_cons, Characteristic.updated,
        if_neg hc]
      rfl

theorem setValue?_eq_updated {s : Service} (distinct : (s.characteristics.map (·.path)).Nodup)
    (h : s.HasCharacteristic p) : s.setValue? p value = some (s.updated p value) := by
  rw [setValue?, setValueIn?_eq_map distinct h]
  rfl

theorem setValue?_eq_none_of_not {s : Service} (h : ¬ s.HasCharacteristic p) :
    s.setValue? p value = none := by
  rw [setValue?, Option.map_eq_none_iff, setValueIn?_eq_none]
  exact fun c hc hp => h ⟨c, hc, hp⟩

end Service

/-! ### The state after an update -/

namespace Application

variable {app app' : Application} {p q path : ObjectPath} {value more : List UInt8}
  {roots : ObjectPath → Prop} {acts : List Act} {t u : List (Exchange Application)} {r : Answer}
  {H : Held}

/-- A live characteristic lies at a path. -/
def HasCharacteristic (app : Application) (path : ObjectPath) : Prop :=
  ∃ s ∈ app.services, s.HasCharacteristic path

instance : Decidable (app.HasCharacteristic path) :=
  inferInstanceAs (Decidable (∃ s ∈ app.services, s.HasCharacteristic path))

/-- **The application after an update**: a live characteristic of the path has the value, and so has
the entry of the path. -/
def updated (path : ObjectPath) (value : List UInt8) (app : Application) : Application :=
  if app.HasCharacteristic path then
    { app with
      services := app.services.map (Service.updated path value)
      directory := app.directory.modify path (InterfaceMap.withValue value) }
  else app

theorem updated_of_not (h : ¬ app.HasCharacteristic p) : app.updated p value = app := if_neg h

theorem hasCharacteristic_updated :
    (app.updated p value).HasCharacteristic q ↔ app.HasCharacteristic q := by
  unfold updated
  split
  · simp [HasCharacteristic, Service.hasCharacteristic_updated]
  · rfl

/-- **Of two updates of one characteristic the last one counts.** -/
theorem updated_updated : (app.updated p value).updated p more = app.updated p more := by
  by_cases hp : app.HasCharacteristic p
  · have hagain : (app.updated p value).HasCharacteristic p := hasCharacteristic_updated.2 hp
    rw [updated, if_pos hagain, updated, if_pos hp, updated, if_pos hp]
    simp only [List.map_map, FinMap.modify_modify]
    congr 1
    · exact List.map_congr_left fun s _ => s.updated_updated
    · congr 1
      funext interfaces
      exact interfaces.withValue_withValue value more
  · rw [updated_of_not hp]

/-- **Updates at different paths can be exchanged.** -/
theorem updated_comm (h : p ≠ q) :
    (app.updated p value).updated q more = (app.updated q more).updated p value := by
  by_cases hp : app.HasCharacteristic p
  · by_cases hq : app.HasCharacteristic q
    · have hp' : (app.updated q more).HasCharacteristic p := hasCharacteristic_updated.2 hp
      have hq' : (app.updated p value).HasCharacteristic q := hasCharacteristic_updated.2 hq
      rw [updated, if_pos hq', updated, if_pos hp, updated, if_pos hp', updated, if_pos hq]
      simp only [List.map_map, FinMap.modify_comm h]
      congr 1
      exact List.map_congr_left fun s _ => s.updated_comm h
    · have hq' : ¬ (app.updated p value).HasCharacteristic q := mt hasCharacteristic_updated.1 hq
      rw [updated_of_not hq', updated_of_not hq]
  · have hp' : ¬ (app.updated q more).HasCharacteristic p := mt hasCharacteristic_updated.1 hp
    rw [updated_of_not hp, updated_of_not hp']

/-! ### What an update does -/

/-- **Where services have no path in common, replacing the value in the first one that has the path
is replacing it in all of them.** -/
theorem setValueIn?_eq_map {ss : List Service}
    (apart : ss.Pairwise fun s v => s.HasCharacteristic p → ¬ v.HasCharacteristic p)
    (distinct : ∀ s ∈ ss, (s.characteristics.map (·.path)).Nodup)
    (h : ∃ s ∈ ss, s.HasCharacteristic p) :
    setValueIn? p value ss = some (ss.map (Service.updated p value)) := by
  induction ss with
  | nil => simp at h
  | cons s ss ih =>
    obtain ⟨hother, hrest⟩ := List.pairwise_cons.1 apart
    by_cases hs : s.HasCharacteristic p
    · have hsame : ss.map (Service.updated p value) = ss :=
        (List.map_congr_left fun v hv => v.updated_of_not (hother v hv hs)).trans (List.map_id' _)
      rw [setValueIn?, Service.setValue?_eq_updated (distinct s List.mem_cons_self) hs,
        List.map_cons, hsame]
    · have hlater : ∃ v ∈ ss, v.HasCharacteristic p := by simpa [hs] using h
      rw [setValueIn?, Service.setValue?_eq_none_of_not hs,
        ih hrest (fun v hv => distinct v (List.mem_cons_of_mem _ hv)) hlater, List.map_cons,
        s.updated_of_not hs]
      rfl

theorem setValueIn?_eq_none {ss : List Service} (h : ¬ ∃ s ∈ ss, s.HasCharacteristic p) :
    setValueIn? p value ss = none := by
  cases hset : setValueIn? p value ss with
  | none => rfl
  | some ts =>
    obtain ⟨before, s, after, t, rfl, ht, -⟩ := setValueIn?_eq_some hset
    exact absurd ⟨s, by simp, Service.characteristic_of_setValue? ht⟩ h

namespace Tidy

/-- Live services have no characteristic path in common. -/
theorem pairwise_services (h : app.Tidy roots) :
    app.services.Pairwise fun s v => s.HasCharacteristic p → ¬ v.HasCharacteristic p := by
  refine (List.pairwise_map.1 h.distinct).imp_of_mem fun {s v} hs hv hne => ?_
  rintro ⟨c, hc, rfl⟩ ⟨e, he, hpath⟩
  obtain ⟨root, -, hrooted⟩ := h.rooted s hs
  obtain ⟨root', -, hrooted'⟩ := h.rooted v hv
  have hcs := hrooted.owner_eq (Service.mem_nodes.2 (Or.inr ⟨c, hc, Or.inl rfl⟩))
  have hev := hrooted'.owner_eq (Service.mem_nodes.2 (Or.inr ⟨e, he, Or.inl rfl⟩))
  rw [Node.path] at hcs hev
  exact hne (by rw [← hcs, ← hev, hpath])

/-- **The search of an update finds the one characteristic of the path.** -/
theorem setValueIn?_eq (h : app.Tidy roots) (hp : app.HasCharacteristic p) :
    setValueIn? p value app.services = some (app.services.map (Service.updated p value)) := by
  refine setValueIn?_eq_map h.pairwise_services (fun s hs => ?_) hp
  obtain ⟨root, -, hrooted⟩ := h.rooted s hs
  exact hrooted.nodup

/-- **An update makes one call, in the updated state**, which it leaves behind whatever is answered;
where there is no characteristic to update it makes none. -/
theorem script_updateValue (h : app.Tidy roots) :
    app.script (updateValue p value) =
      if app.HasCharacteristic p then
        .call (app.updated p value) (.updateValue p value) fun r => .done (r, app.updated p value)
      else .done (.error (.noCharacteristic p), app) := by
  rw [updateValue]
  simp only [script_bind, script_get, Script.done_bind]
  by_cases hp : app.HasCharacteristic p
  · rw [if_pos hp, h.setValueIn?_eq hp, Application.updated, if_pos hp]
    simp only [script_bind, script_set, script_ask, Script.done_bind, Directory.setProperty_value]
  · rw [if_neg hp, setValueIn?_eq_none hp, script_throw]

theorem updated (h : app.Tidy roots) : (app.updated p value).Tidy roots := by
  by_cases hp : app.HasCharacteristic p
  · have found : setValueIn? p value app.services =
        some (app.services.map (Service.updated p value)) := h.setValueIn?_eq hp
    rw [Application.updated, if_pos hp]
    exact (h.showing found).of_services rfl
  · rwa [updated_of_not hp]

theorem performs_update (h : app.Tidy roots)
    (performs : app.Performs (Act.update p value).operation t r app') :
    app' = app.updated p value := by
  rw [Act.operation, Performs, h.script_updateValue] at performs
  by_cases hp : app.HasCharacteristic p
  · rw [if_pos hp, Script.trace_call] at performs
    obtain ⟨answer, rest, -, hdone⟩ := performs
    exact (Prod.mk.inj (Script.trace_done.1 hdone).2).2
  · rw [if_neg hp] at performs
    rw [updated_of_not hp]
    exact (Prod.mk.inj (Script.trace_done.1 performs).2).2

/-- **Where some updates lead does not depend on the answers.** -/
theorem history_updates (h : app.Tidy roots) (updates : List (ObjectPath × List UInt8))
    (past : app.History (updates.map fun x => .update x.1 x.2) t app') :
    app' = updates.foldl (fun app x => app.updated x.1 x.2) app := by
  induction updates generalizing app t with
  | nil =>
    cases past
    rfl
  | cons x xs ih =>
    obtain _ | ⟨first, rest⟩ := past
    obtain rfl := h.performs_update first
    exact ih h.updated rest

end Tidy

/-! ### Exactness -/

/-- What an update of a live characteristic changes, and that it changes nothing else. -/
structure Assigned (path : ObjectPath) (value : List UInt8) (app app' : Application) : Prop where
  /-- The characteristic of the path has the value; the other nodes are what they were. -/
  services : app'.services = app.services.map fun s =>
    { s with characteristics := s.characteristics.map fun c =>
      if c.path = path then { c with properties := { c.properties with value } } else c }
  /-- It is the only live node at the path. -/
  single : (app.nodes.map Node.path).count path = 1
  /-- Its entry, if it has one, is that of a characteristic, and shows the value. -/
  entry : ∀ interfaces, app.directory.find? path = some interfaces →
    ∃ properties, interfaces.entries = [(Interface.characteristic, properties)] ∧
      (app'.directory.find? path).map FinMap.entries =
        some [(Interface.characteristic, properties.insert "Value" (.bytes value))]
  /-- The other entries are what they were, -/
  others : ∀ q ≠ path, app'.directory.find? q = app.directory.find? q
  /-- and so is their order. -/
  keys : app'.directory.keys = app.directory.keys
  /-- So is everything else of the application. -/
  rest : app' = { app with services := app'.services, directory := app'.directory }

/-- **The effect of updates**, for every path and every value. -/
structure UpdatesExactly (app : Application) : Prop where
  /-- An update of a live characteristic makes one call, in the new state, and ends in that state
  with the answer to the call. -/
  live : ∀ path value, app.HasCharacteristic path → ∃ app', app.Assigned path value app' ∧
    app.script (updateValue path value) =
      .call app' (.updateValue path value) fun answer => .done (answer, app')
  /-- Any other update fails without a call and changes nothing. -/
  other : ∀ path value, ¬ app.HasCharacteristic path →
    app.script (updateValue path value) = .done (.error (.noCharacteristic path), app)
  /-- A path has a live characteristic if it is that of a live node of this kind. -/
  kinds : ∀ n ∈ app.nodes, app.HasCharacteristic n.path ↔ n.kind = .characteristic
  /-- Where there is no live node there is no live characteristic. -/
  absent : ∀ path, path ∉ app.nodes.map Node.path → ¬ app.HasCharacteristic path
  /-- Of two updates of one path the last one counts. -/
  twice : ∀ path value last t u app₁ app₂,
    app.History [.update path value, .update path last] t app₁ →
      app.History [.update path last] u app₂ → app₁ = app₂
  /-- Updates of different paths can be exchanged. -/
  exchange : ∀ path value other more t u app₁ app₂, path ≠ other →
    app.History [.update path value, .update other more] t app₁ →
      app.History [.update other more, .update path value] u app₂ → app₁ = app₂

theorem HasCharacteristic.exists_node (h : app.HasCharacteristic path) :
    ∃ n ∈ app.nodes, n.kind = .characteristic ∧ n.path = path := by
  obtain ⟨s, hs, c, hc, rfl⟩ := h
  exact ⟨.characteristic s c,
    mem_nodes.2 ⟨s, hs, Service.mem_nodes.2 (Or.inr ⟨c, hc, Or.inl rfl⟩)⟩, rfl, rfl⟩

theorem Tidy.hasCharacteristic_iff (h : app.Tidy roots) {n : Node} (hn : n ∈ app.nodes) :
    app.HasCharacteristic n.path ↔ n.kind = .characteristic := by
  constructor
  · intro hhas
    obtain ⟨m, hm, hkind, hpath⟩ := hhas.exists_node
    rwa [← List.inj_on_of_nodup_map h.nodup_paths hm hn hpath]
  · intro hkind
    obtain ⟨s, hs, hns⟩ := mem_nodes.1 hn
    rcases Service.mem_nodes.1 hns with rfl | ⟨c, hc, rfl | ⟨d, -, rfl⟩⟩
    · cases hkind
    · exact ⟨s, hs, c, hc, rfl⟩
    · cases hkind

/-- The path of a live characteristic tells that it is one. -/
theorem Tidy.kind?_eq (h : app.Tidy roots) {n : Node} (hn : n ∈ app.nodes) :
    n.path.kind? = some n.kind := by
  obtain ⟨s, hs, hns⟩ := mem_nodes.1 hn
  obtain ⟨root, -, hrooted⟩ := h.rooted s hs
  exact hrooted.kind?_eq hns

namespace Sound

/-- **The entry of a live characteristic is that of a characteristic.** -/
theorem entries_eq (h : app.Sound H) (hp : app.HasCharacteristic path) {interfaces : InterfaceMap}
    (hfind : app.directory.find? path = some interfaces) :
    ∃ properties, interfaces.entries = [(Interface.characteristic, properties)] := by
  obtain ⟨k, hfits, -⟩ := h.entry path interfaces hfind
  obtain ⟨n, hn, hkind, rfl⟩ := hp.exists_node
  have hk : n.path.kind? = some .characteristic := hkind ▸ h.tidy.kind?_eq hn
  rw [hfits.kind] at hk
  obtain rfl := Option.some.inj hk
  obtain ⟨⟨interface, properties⟩, hentries, rfl⟩ := List.map_eq_singleton_iff.1 hfits.keys
  exact ⟨properties, hentries⟩

theorem assigned (h : app.Sound H) (hp : app.HasCharacteristic path) :
    app.Assigned path value (app.updated path value) := by
  rw [updated, if_pos hp]
  refine ⟨rfl, ?_, fun interfaces hfind => ?_, fun q hq => ?_, FinMap.keys_modify _ _ _, rfl⟩
  · obtain ⟨n, hn, -, rfl⟩ := hp.exists_node
    exact List.count_eq_one_of_mem h.tidy.nodup_paths (List.mem_map_of_mem hn)
  · obtain ⟨properties, hentries⟩ := h.entries_eq hp hfind
    refine ⟨properties, hentries, ?_⟩
    rw [FinMap.find?_modify_self, hfind]
    simp [InterfaceMap.withValue, FinMap.modify, hentries]
  · exact FinMap.find?_modify_of_ne _ _ hq

theorem updatesExactly (h : app.Sound H) : app.UpdatesExactly where
  live path value hp := ⟨_, h.assigned hp, by rw [h.tidy.script_updateValue, if_pos hp]⟩
  other path value hp := by rw [h.tidy.script_updateValue, if_neg hp]
  kinds n hn := h.tidy.hasCharacteristic_iff hn
  absent path hpath hp := by
    obtain ⟨n, hn, -, rfl⟩ := hp.exists_node
    exact hpath (List.mem_map_of_mem hn)
  twice path value last t u app₁ app₂ h₁ h₂ := by
    have hboth := h.tidy.history_updates [(path, value), (path, last)] h₁
    have hlast := h.tidy.history_updates [(path, last)] h₂
    rw [hboth, hlast]
    exact updated_updated
  exchange path value other more t u app₁ app₂ hne h₁ h₂ := by
    have hone := h.tidy.history_updates [(path, value), (other, more)] h₁
    have hother := h.tidy.history_updates [(other, more), (path, value)] h₂
    rw [hone, hother]
    exact updated_comm hne

end Sound

/-- **In every state that an application can get into, an update does what it should**: it replaces
the value of one live characteristic, in the tree and in the entry, also when the bus does not pass
the change on.  The bus may fail any call of the history; it only refuses to export what it
holds. -/
theorem updates_exactly {id : AppId} {profile : Profile}
    (past : (fresh id profile).History acts t app)
    (made : ∀ a ∈ acts, a.Uses fun s => ∃ root, s.Made root) (refusing : Refusing H t) :
    app.UpdatesExactly :=
  ((Sound.fresh id profile H).history past made refusing).2.updatesExactly

/-- A service is added, but its second node cannot be announced. -/
def halfAddition : List Act := [.run, .add Sample.battery]

def halfAdditionAnswers : List Answer := List.replicate 8 (.ok ()) ++ [Sample.failure]

/-- The hypotheses are satisfiable: updates do what they should after the acts above, which leave a
characteristic live whose descriptor is not listed. -/
theorem updates_exactly_halfAddition :
    let played := play Sample.answering (fresh 0 Sample.profile) halfAddition halfAdditionAnswers
    played.2.1.directory.keys = [Sample.batteryPath, Sample.levelPath] ∧
      played.2.1.nodes.length = 3 ∧ played.2.1.HasCharacteristic Sample.levelPath ∧
      played.2.1.UpdatesExactly := by
  refine ⟨by decide, by decide, by decide, ?_⟩
  refine updates_exactly (H := ∅) (history_play _ _ halfAddition _) ?_ (by decide)
  intro a ha
  simp only [halfAddition, List.mem_cons, List.not_mem_nil, or_false] at ha
  rcases ha with rfl | rfl
  · trivial
  · exact ⟨_, Sample.made_battery⟩

end Application
end GattServer
