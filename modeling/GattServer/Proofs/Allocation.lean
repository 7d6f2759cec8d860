/-
# Allocated paths

The services that an application creates get the numbers from one on, whatever becomes of them and
whatever else the application does in between.  As long as the counter does not come round, their
paths differ (`Workshop.nodup_allocated`), and their written forms are those of the root followed
by a slash, the label and the number (`Workshop.text_allocated`).

The path of a node tells its service.  So two services of different paths have no node path in
common, even where the root of one application lies in the tree of another
(`Workshop.paths_never_clash`).
-/

import GattServer.Proofs.Subjects
import GattServer.Proofs.Workshop

namespace GattServer

/-! ### Numbers in paths -/

/-- Different numbers make different segments. -/
theorem Segment.numbered_injective {label : Segment} {m n : UInt32}
    (h : label.numbered m = label.numbered n) : m = n := by
  have htext : toString m.toNat = toString n.toNat :=
    (String.append_right_inj label.text).1 (congrArg Segment.text h)
  have hdigits : Nat.toDigits 10 m.toNat = Nat.toDigits 10 n.toNat := by
    simpa [Nat.toString_eq_repr, Nat.repr_eq_ofList_toDigits, String.ofList_inj] using htext
  have hnat := congrArg (Nat.ofDigitChars 10 · 0) hdigits
  simp only [Nat.ofDigitChars_ten_toDigits] at hnat
  exact UInt32.toNat_inj.1 hnat

theorem ObjectPath.text_push (p : ObjectPath) (s : Segment) :
    (p.push s).text = p.stem ++ "/" ++ s.text := by
  rw [text, if_neg (by simp [push]), stem_push]

/-- A service can always create a characteristic. -/
theorem Service.exists_createCharacteristic (s : Service) (properties : CharacteristicProperties) :
    ∃ c t, s.createCharacteristic properties = .ok (c, t) := by
  have hc := s.path.child?_numbered Segment.characteristic (s.created + 1)
  have hl : Segment.characteristic.text = characteristicLabel := rfl
  rw [hl] at hc
  rw [createCharacteristic, hc]
  exact ⟨_, _, rfl⟩

/-- A characteristic can always create a descriptor. -/
theorem Characteristic.exists_createDescriptor (c : Characteristic)
    (properties : DescriptorProperties) : ∃ d e, c.createDescriptor properties = .ok (d, e) := by
  have hc := c.path.child?_numbered Segment.descriptor (c.created + 1)
  have hl : Segment.descriptor.text = descriptorLabel := rfl
  rw [hl] at hc
  rw [createDescriptor, hc]
  exact ⟨_, _, rfl⟩

namespace Workshop

variable {profiles : AppId → Profile} {log : List Deed} {w w' : Workshop} {deed : Deed}
  {i j : AppId} {root : ObjectPath} {n : Nat}

/-- The first paths below a root that are allocated to services. -/
def allocated (root : ObjectPath) (n : Nat) : List ObjectPath :=
  (List.range n).map fun k => root.push (Segment.service.numbered (UInt32.ofNat (k + 1)))

theorem allocated_succ :
    allocated root (n + 1) =
      allocated root n ++ [root.push (Segment.service.numbered (UInt32.ofNat (n + 1)))] := by
  simp [allocated, List.range_succ]

/-- **Allocated paths differ** while the counter does not come round. -/
theorem nodup_allocated (few : n < UInt32.size) : (allocated root n).Nodup := by
  refine List.Nodup.map_on ?_ List.nodup_range
  intro k hk l hl hpath
  rw [List.mem_range] at hk hl
  have hnumber := Segment.numbered_injective (ObjectPath.push_injective hpath).2
  have hnat := congrArg UInt32.toNat hnumber
  rw [UInt32.toNat_ofNat_of_lt' (by omega), UInt32.toNat_ofNat_of_lt' (by omega)] at hnat
  omega

/-- **The written forms of allocated paths.**  The root `/` contributes nothing to them. -/
theorem text_allocated (few : n < UInt32.size) :
    (allocated root n).map ObjectPath.text =
      (List.range n).map fun k => root.stem ++ "/service" ++ toString (k + 1) := by
  rw [allocated, List.map_map]
  refine List.map_congr_left fun k hk => ?_
  have hlt : k + 1 < UInt32.size := (Nat.succ_le_of_lt (List.mem_range.1 hk)).trans_lt few
  have hlabel : "/service" = "/" ++ serviceLabel := rfl
  simp only [Function.comp_apply, ObjectPath.text_push, Segment.numbered, Segment.service,
    UInt32.toNat_ofNat_of_lt' hlt, hlabel, String.append_assoc]

/-- The services on record are those that the counter counts. -/
def Counts (root : ObjectPath) (paths : List ObjectPath) (app : Application) : Prop :=
  app.created = UInt32.ofNat paths.length ∧ paths = allocated root paths.length

theorem Counts.createService {paths : List ObjectPath} {app app' : Application}
    {properties : ServiceProperties} {advertised : Bool} {s : Service}
    (h : Counts app.path paths app)
    (hnew : app.createService properties advertised = .ok (s, app')) :
    Counts app.path (paths ++ [s.path]) app' := by
  obtain ⟨hcount, hpaths⟩ := h
  obtain ⟨rfl, rfl⟩ := Application.createService_eq hnew
  have hnext : app.created + 1 = UInt32.ofNat (paths.length + 1) := by
    rw [hcount, UInt32.ofNat_add]
    rfl
  constructor
  · rw [List.length_append, List.length_singleton]
    exact hnext
  · rw [List.length_append, List.length_singleton, allocated_succ, ← hpaths, ← hnext]
    rfl

/-- **An application numbers the services it creates**, one after the other. -/
theorem Run.counts (run : Run profiles log w) :
    ∀ i, Counts (profiles i).path (created i log) (w.apps i) := by
  induction run with
  | start => exact fun i => ⟨rfl, rfl⟩
  | @step log w w' deed run h ih =>
    intro j
    rw [created_append]
    cases h with
    | @service i properties advertised s app' hnew =>
      by_cases hj : j = i
      · subst hj
        rw [created_self, ← (run.kept.2 j).path]
        have hthen := ih j
        rw [← (run.kept.2 j).path] at hthen
        have hnow := hthen.createService hnew
        rwa [← update_self (w := w) app'] at hnow
      · rw [created_of_ne _ (Ne.symm hj), List.append_nil]
        have hthen := ih j
        rwa [← update_of_ne app' hj] at hthen
    | characteristic | descriptor | attachCharacteristic | attachDescriptor =>
      rw [show created j [Deed.built] = [] from rfl, List.append_nil]
      exact ih j
    | @act i a t r app' offered hperforms =>
      rw [show created j [Deed.performed i a r] = [] from rfl, List.append_nil]
      have hsame := Application.performs_created offered.not_creates hperforms
      refine forall_update (w := w) (P := fun j app => Counts (profiles j).path (created j log) app)
        ih ?_ j
      exact ⟨hsame.trans (ih i).1, (ih i).2⟩

/-! ### What is there at any time -/

/-- Nothing fails to be created. -/
structure CanCreate (w : Workshop) : Prop where
  service : ∀ i properties advertised,
    ∃ s app', (w.apps i).createService properties advertised = .ok (s, app')
  characteristic : ∀ s ∈ w.services, ∀ properties,
    ∃ c t, s.createCharacteristic properties = .ok (c, t)
  descriptor : ∀ c ∈ w.characteristics, ∀ properties,
    ∃ d e, c.createDescriptor properties = .ok (d, e)

theorem canCreate (w : Workshop) : w.CanCreate where
  service i properties advertised := by
    have hc := (w.apps i).path.child?_numbered Segment.service ((w.apps i).created + 1)
    have hl : Segment.service.text = serviceLabel := rfl
    rw [hl] at hc
    rw [Application.createService, hc]
    exact ⟨_, _, rfl⟩
  characteristic s _ properties := s.exists_createCharacteristic properties
  descriptor c _ properties := c.exists_createDescriptor properties

/-- A service is at hand, in some state that it has been in, or it is live. -/
def Has (w : Workshop) (s : Service) : Prop := s ∈ w.services ∨ ∃ i, s ∈ (w.apps i).services

theorem Run.tidy (run : Run profiles log w) (i : AppId) : (w.apps i).Tidy fun _ => True := by
  obtain ⟨acts, t, past, made⟩ := run.kept.2 i
  have orderly : (w.apps i).Orderly (fun _ => True) t :=
    Application.orderly_of_history past fun a ha =>
      (made a ha).imp fun _ ⟨_, hs⟩ => ⟨_, trivial, hs⟩
  exact orderly.tidy

theorem Run.rooted (run : Run profiles log w) {s : Service} (h : w.Has s) :
    ∃ root, s.Rooted root := by
  rcases h with h | ⟨i, h⟩
  · obtain ⟨j, made⟩ := run.kept.1.services s h
    exact ⟨_, made.rooted⟩
  · obtain ⟨root, -, rooted⟩ := (run.tidy i).rooted s h
    exact ⟨root, rooted⟩

/-- **Paths never clash**, as long as no application creates as many services as its counter has
values.  Nothing fails to be created; the services of an application get the numbers from one on
and different paths; and services of different paths have no node path in common, whichever
applications created them and wherever these applications lie. -/
theorem paths_never_clash (run : Run profiles log w)
    (few : ∀ i, (created i log).length < UInt32.size) :
    w.CanCreate ∧
      (∀ i, (created i log).Nodup ∧ (created i log).map ObjectPath.text =
        (List.range (created i log).length).map fun k =>
          (profiles i).path.stem ++ "/service" ++ toString (k + 1)) ∧
      ∀ s v, w.Has s → w.Has v → s.path ≠ v.path →
        ∀ n ∈ s.nodes, ∀ m ∈ v.nodes, n.path ≠ m.path := by
  refine ⟨w.canCreate, fun i => ?_, ?_⟩
  · have hpaths := (run.counts i).2
    constructor
    · rw [hpaths]
      exact nodup_allocated (few i)
    · conv_lhs => rw [hpaths]
      exact text_allocated (few i)
  · intro s v hs hv hne n hn m hm hpath
    obtain ⟨root, hrooted⟩ := run.rooted hs
    obtain ⟨root', hrooted'⟩ := run.rooted hv
    apply hne
    rw [← hrooted.owner_eq hn, hpath, hrooted'.owner_eq hm]

/-- Applications at `/` and at `/service1`, the path of the first service of the other one. -/
def nested : AppId → Profile
  | 0 => { settings := { name := "org.example.outer", path := "/" }, path := .root }
  | _ =>
    { settings := { name := "org.example.inner", path := "/service1" },
      path := ObjectPath.root.push (Segment.service.numbered 1) }

/-- The first service of the outer application. -/
def outerService : Service :=
  .new (ObjectPath.root.push (Segment.service.numbered 1)) ⟨.ofAlias 0x180F, true⟩ true

/-- The characteristic it creates. -/
def outerCharacteristic : Characteristic :=
  ⟨outerService.path.push (Segment.characteristic.numbered 1), outerService.path,
    ⟨.ofAlias 0x2A19, .empty, []⟩, 0, []⟩

/-- The service with that characteristic attached. -/
def outerServiceBuilt : Service :=
  { outerService with created := 1, characteristics := [outerCharacteristic] }

/-- The first service of the inner application. -/
def innerService : Service :=
  .new (outerService.path.push (Segment.service.numbered 1)) ⟨.ofAlias 0x180D, true⟩ true

/-- The hypotheses are satisfiable: the outer application creates a service, in the tree of which
the inner one creates another, and then has a characteristic of its own attached to it. -/
theorem paths_never_clash_nested : ∃ log w, Run nested log w ∧
    (created 0 log).map ObjectPath.text = ["/service1"] ∧
    (created 1 log).map ObjectPath.text = ["/service1/service1"] ∧
    w.Has outerServiceBuilt ∧ w.Has innerService ∧ w.CanCreate ∧
    ∀ s v, w.Has s → w.Has v → s.path ≠ v.path →
      ∀ n ∈ s.nodes, ∀ m ∈ v.nodes, n.path ≠ m.path := by
  have run := (Run.start : Run nested [] _)
    |>.step (@Step.service _ 0 _ _ outerService
      { Application.fresh 0 (nested 0) with created := 1 } rfl)
    |>.step (@Step.service _ 1 _ _ innerService
      { Application.fresh 1 (nested 1) with created := 1 } rfl)
    |>.step (.characteristic (s := outerService) (c := outerCharacteristic)
      (t := { outerService with created := 1 }) (.tail _ (.head _)) rfl)
    |>.step (.attachCharacteristic (s := { outerService with created := 1 })
      (t := outerServiceBuilt) (.head _) (.head _) rfl)
  obtain ⟨creates, -, apart⟩ := paths_never_clash run fun i =>
    (List.length_filterMap_le _ _).trans_lt (by decide)
  exact ⟨_, _, run, by decide, by decide, .inl (.head _), .inl (.tail _ (.tail _ (.head _))),
    creates, apart⟩

end Workshop
end GattServer
