/-
# Services from pieces

Services, characteristics and descriptors are pieces that are put together one at a time.  A piece
creates another one, which gets the next number of the piece that creates it, and a piece is
attached to another one, by calls to the functions that applications offer for it (`Piece.Creates`,
`Piece.Attaches`).  Pieces are values, so a copy of one goes its own way, with a counter and parts
of its own, and whatever was built can be offered to any other piece, again and again.

`Built` holds of all pieces that come about like this while no counter comes round.  What is
attached to a built piece was built as well (`Built.parts`) and names the piece that created it
(`Built.created`), so the shape of a whole subtree follows (`Built.shaped`).
-/

import GattServer.Proofs.Allocation

namespace GattServer

/-- A service, a characteristic or a descriptor. -/
inductive Piece where
  | service (s : Service)
  | characteristic (c : Characteristic)
  | descriptor (d : Descriptor)

namespace Piece

/-- The path of a piece. -/
def path : Piece → ObjectPath
  | .service s => s.path
  | .characteristic c => c.path
  | .descriptor d => d.path

/-- How many pieces it has created. -/
def created : Piece → UInt32
  | .service s => s.created
  | .characteristic c => c.created
  | .descriptor _ => 0

/-- The pieces attached to it, in order of attachment. -/
def parts : Piece → List Piece
  | .service s => s.characteristics.map .characteristic
  | .characteristic c => c.descriptors.map .descriptor
  | .descriptor _ => []

/-- The counter does not come round when one more piece is created. -/
def HasRoom (p : Piece) : Prop := p.created.toNat + 1 < UInt32.size

instance (p : Piece) : Decidable p.HasRoom :=
  inferInstanceAs (Decidable (p.created.toNat + 1 < UInt32.size))

/-- One piece creates another one, and is a third one then, which has counted it. -/
inductive Creates : Piece → Piece → Piece → Prop where
  | characteristic {s t : Service} {properties : CharacteristicProperties} {c : Characteristic}
    (h : s.createCharacteristic properties = .ok (c, t)) :
    Creates (.service s) (.characteristic c) (.service t)
  | descriptor {c e : Characteristic} {properties : DescriptorProperties} {d : Descriptor}
    (h : c.createDescriptor properties = .ok (d, e)) :
    Creates (.characteristic c) (.descriptor d) (.characteristic e)

/-- To one piece another one is attached, which makes it a third one. -/
inductive Attaches : Piece → Piece → Piece → Prop where
  | characteristic {s t : Service} {c : Characteristic} (h : s.addCharacteristic c = .ok t) :
    Attaches (.service s) (.characteristic c) (.service t)
  | descriptor {c e : Characteristic} {d : Descriptor} (h : c.addDescriptor d = .ok e) :
    Attaches (.characteristic c) (.descriptor d) (.characteristic e)

end Piece

/-- **The pieces that are built**, each with the paths that it has allocated so far.  A copy starts
with what the piece has allocated that it is taken of. -/
inductive Built : List ObjectPath → Piece → Prop where
  | service {app app' : Application} {properties : ServiceProperties} {advertised : Bool}
    {s : Service} (h : app.createService properties advertised = .ok (s, app')) :
    Built [] (.service s)
  | child {ps : List ObjectPath} {p q p' : Piece} (built : Built ps p) (h : p.Creates q p')
    (room : p.HasRoom) : Built [] q
  | creator {ps : List ObjectPath} {p q p' : Piece} (built : Built ps p) (h : p.Creates q p')
    (room : p.HasRoom) : Built (ps ++ [q.path]) p'
  | whole {ps qs : List ObjectPath} {p q p' : Piece} (built : Built ps p) (offered : Built qs q)
    (h : p.Attaches q p') : Built ps p'

variable {ps qs rs : List ObjectPath} {p q p' : Piece} {s t : Service} {c e : Characteristic}
  {d : Descriptor}

/-! ### Attaching -/

theorem Service.addCharacteristic_eq (h : s.addCharacteristic c = .ok t) :
    t = { s with characteristics := s.characteristics ++ [c] } := by
  unfold Service.addCharacteristic at h
  split_ifs at h
  cases h
  rfl

theorem Characteristic.addDescriptor_eq (h : c.addDescriptor d = .ok e) :
    e = { c with descriptors := c.descriptors ++ [d] } := by
  unfold Characteristic.addDescriptor at h
  split_ifs at h
  cases h
  rfl

/-- **What becomes of a characteristic that is offered to a service.** -/
structure Service.Receives (s : Service) (c : Characteristic) : Prop where
  /-- One that names another service is refused, -/
  foreign : c.service ≠ s.path →
    s.addCharacteristic c = .error (.foreignCharacteristic c.path s.path)
  /-- and so is one whose path has been attached. -/
  again : c.service = s.path → (∃ e ∈ s.characteristics, e.path = c.path) →
    s.addCharacteristic c = .error (.characteristicAdded c.path)
  /-- Any other becomes the last one. -/
  accepted : c.service = s.path → (∀ e ∈ s.characteristics, e.path ≠ c.path) →
    s.addCharacteristic c = .ok { s with characteristics := s.characteristics ++ [c] }

/-- **What becomes of a descriptor that is offered to a characteristic.** -/
structure Characteristic.Receives (c : Characteristic) (d : Descriptor) : Prop where
  /-- One that names another characteristic is refused, -/
  foreign : d.characteristic ≠ c.path →
    c.addDescriptor d = .error (.foreignDescriptor d.path c.path)
  /-- and so is one whose path has been attached. -/
  again : d.characteristic = c.path → (∃ e ∈ c.descriptors, e.path = d.path) →
    c.addDescriptor d = .error (.descriptorAdded d.path)
  /-- Any other becomes the last one. -/
  accepted : d.characteristic = c.path → (∀ e ∈ c.descriptors, e.path ≠ d.path) →
    c.addDescriptor d = .ok { c with descriptors := c.descriptors ++ [d] }

theorem Service.receives (s : Service) (c : Characteristic) : s.Receives c where
  foreign h := if_pos h
  again h hadded := by
    have hsome : (s.characteristic? c.path).isSome := by
      simpa [characteristic?, List.find?_isSome] using hadded
    rw [addCharacteristic, if_neg (not_not.2 h), if_pos hsome]
  accepted h hnew := by
    have hnone : ¬ (s.characteristic? c.path).isSome := by
      simpa [characteristic?, List.find?_isSome] using hnew
    rw [addCharacteristic, if_neg (not_not.2 h), if_neg hnone]

theorem Characteristic.receives (c : Characteristic) (d : Descriptor) : c.Receives d where
  foreign h := if_pos h
  again h hadded := by
    have hany : c.descriptors.any fun e => e.path = d.path := by simpa using hadded
    rw [addDescriptor, if_neg (not_not.2 h), if_pos hany]
  accepted h hnew := by
    have hnone : ¬ c.descriptors.any fun e => e.path = d.path := by simpa using hnew
    rw [addDescriptor, if_neg (not_not.2 h), if_neg hnone]

namespace Piece

/-- What is attached becomes the last part, and nothing else changes. -/
theorem Attaches.eqs (h : p.Attaches q p') :
    p'.parts = p.parts ++ [q] ∧ p'.path = p.path ∧ p'.created = p.created := by
  cases h with
  | characteristic h =>
    rw [Service.addCharacteristic_eq h]
    exact ⟨by simp [parts], rfl, rfl⟩
  | descriptor h =>
    rw [Characteristic.addDescriptor_eq h]
    exact ⟨by simp [parts], rfl, rfl⟩

/-- What is created has no parts, and its creator keeps those it has. -/
theorem Creates.eqs (h : p.Creates q p') :
    q.parts = [] ∧ p'.parts = p.parts ∧ p'.path = p.path ∧ p'.created = p.created + 1 := by
  cases h with
  | characteristic h =>
    obtain ⟨rfl, rfl⟩ := Service.createCharacteristic_eq h
    exact ⟨rfl, rfl, rfl, rfl⟩
  | descriptor h =>
    obtain ⟨rfl, rfl⟩ := Characteristic.createDescriptor_eq h
    exact ⟨rfl, rfl, rfl, rfl⟩

end Piece

/-! ### What is built -/

namespace Built

/-- **What is attached to a built piece was built.** -/
theorem parts (h : Built ps p) : ∀ q ∈ p.parts, ∃ qs, Built qs q := by
  induction h with
  | @service app app' properties advertised s h =>
    obtain ⟨rfl, -⟩ := Application.createService_eq h
    exact fun q hq => absurd hq List.not_mem_nil
  | child built h room ih =>
    rw [h.eqs.1]
    exact fun q hq => absurd hq List.not_mem_nil
  | creator built h room ih =>
    rw [h.eqs.2.1]
    exact ih
  | @whole ps qs p q p' built offered h ih _ =>
    rw [h.eqs.1]
    intro r hr
    rcases List.mem_append.1 hr with hr | hr
    · exact ih r hr
    · rw [List.mem_singleton.1 hr]
      exact ⟨qs, offered⟩

theorem characteristics (h : Built ps (.service s)) (hc : c ∈ s.characteristics) :
    ∃ qs, Built qs (.characteristic c) :=
  h.parts _ (List.mem_map_of_mem hc)

theorem descriptors (h : Built ps (.characteristic c)) (hd : d ∈ c.descriptors) :
    ∃ qs, Built qs (.descriptor d) :=
  h.parts _ (List.mem_map_of_mem hd)

end Built

/-- A piece that the applications make. -/
def Piece.Made : Piece → Prop
  | .service s => ∃ root, s.Made root
  | .characteristic c => c.Made
  | .descriptor d => d.Made

/-- What is built is made. -/
theorem Built.made (h : Built ps p) : p.Made := by
  induction h with
  | service h => exact ⟨_, .created rfl h⟩
  | child built h room ih =>
    cases h with
    | characteristic h =>
      obtain ⟨root, made⟩ := ih
      exact .created made h
    | descriptor h => exact .created ih h
  | creator built h room ih =>
    cases h with
    | characteristic h =>
      obtain ⟨root, made⟩ := ih
      exact ⟨root, .counted made h⟩
    | descriptor h => exact .counted ih h
  | whole built offered h ih hoffered =>
    cases h with
    | characteristic h =>
      obtain ⟨root, made⟩ := ih
      exact ⟨root, .attached made hoffered h⟩
    | descriptor h => exact .attached ih hoffered h

/-- A service created the characteristic, as the one of a path and under the path of the service. -/
def Service.Created (s : Service) (c : Characteristic) : Prop :=
  ∃ properties first t, s.createCharacteristic properties = .ok (first, t) ∧
    first.path = c.path ∧ first.service = c.service

/-- A characteristic created the descriptor. -/
def Characteristic.Created (c : Characteristic) (d : Descriptor) : Prop :=
  ∃ properties e, c.createDescriptor properties = .ok (d, e)

/-- A piece that is not a service was created by another one, whose counter did not come round. -/
def Piece.HasCreator : Piece → Prop
  | .service _ => True
  | .characteristic c => ∃ qs s, Built qs (.service s) ∧ (Piece.service s).HasRoom ∧ s.Created c
  | .descriptor d =>
    ∃ qs c, Built qs (.characteristic c) ∧ (Piece.characteristic c).HasRoom ∧ c.Created d

/-- **What is built has a creator.**  It stays the same, whatever is created or attached later. -/
theorem Built.hasCreator (h : Built ps p) : p.HasCreator := by
  induction h with
  | service => trivial
  | child built h room ih =>
    cases h with
    | characteristic h => exact ⟨_, _, built, room, _, _, _, h, rfl, rfl⟩
    | descriptor h => exact ⟨_, _, built, room, _, _, h⟩
  | creator built h room ih =>
    cases h with
    | characteristic => trivial
    | descriptor h =>
      obtain ⟨-, rfl⟩ := Characteristic.createDescriptor_eq h
      exact ih
  | whole built offered h ih =>
    cases h with
    | characteristic => trivial
    | descriptor h =>
      rw [Characteristic.addDescriptor_eq h]
      exact ih

/-! ### Numbers -/

theorem Piece.HasRoom.toNat_succ (room : p.HasRoom) :
    (p.created + 1).toNat = p.created.toNat + 1 := by
  rw [UInt32.toNat_add]
  exact Nat.mod_eq_of_lt room

/-- Below a path other than the root, the written form of a numbered path is that path with a slash,
the label and the number added. -/
theorem ObjectPath.text_push_numbered {a : ObjectPath} {x label : Segment} {n : UInt32} :
    ((a.push x).push (label.numbered n)).text =
      (a.push x).text ++ ("/" ++ label.text) ++ toString n.toNat := by
  have hstem : (a.push x).text = (a.push x).stem := if_neg (by simp [push])
  rw [text_push, hstem, Segment.numbered]
  simp only [String.append_assoc]

/-! ### The shape of a subtree -/

/-- A characteristic is one of the service at a path. -/
structure Characteristic.Below (a : ObjectPath) (c : Characteristic) : Prop where
  /-- A service at the path created it, -/
  creator : ∃ qs s, Built qs (.service s) ∧ s.path = a ∧ s.Created c
  /-- it names that path, -/
  named : c.table.get? "Service" = some (.path a)
  /-- and its own path is numbered below. -/
  path : ∃ k, 1 ≤ k ∧ c.path.text = a.text ++ "/char" ++ toString k

/-- A descriptor is one of the characteristic at a path. -/
structure Descriptor.Below (a : ObjectPath) (d : Descriptor) : Prop where
  /-- A characteristic at the path created it, -/
  creator : ∃ qs c, Built qs (.characteristic c) ∧ c.path = a ∧ c.Created d
  /-- it names that path, -/
  named : d.table.get? "Characteristic" = some (.path a)
  /-- and its own path is numbered below. -/
  path : ∃ k, 1 ≤ k ∧ d.path.text = a.text ++ "/desc" ++ toString k

/-- **The shape of the subtree of a service.** -/
structure Service.Shaped (s : Service) : Prop where
  /-- The service comes first, then each characteristic with its descriptors right behind it, in
  order of attachment. -/
  nodes : s.nodes = .service s :: (s.characteristics.map fun c =>
    .characteristic s c :: c.descriptors.map (.descriptor s c)).flatten
  /-- What is attached is listed once. -/
  once : ∀ c ∈ s.characteristics, s.nodes.count (.characteristic s c) = 1 ∧
    ∀ d ∈ c.descriptors, s.nodes.count (.descriptor s c d) = 1
  /-- The paths differ. -/
  distinct : (s.nodes.map Node.path).Nodup
  /-- Every node comes after the one it names as its parent. -/
  parentsFirst : Node.ParentsFirst s.nodes
  /-- The characteristics are those of the service, -/
  characteristics : ∀ c ∈ s.characteristics, c.Below s.path
  /-- and the descriptors those of their characteristics. -/
  descriptors : ∀ c ∈ s.characteristics, ∀ d ∈ c.descriptors, d.Below c.path

namespace Built

theorem rooted (h : Built ps (.service s)) : ∃ root, s.Rooted root := by
  obtain ⟨root, made⟩ := h.made
  exact ⟨root, made.rooted⟩

theorem belongs (h : Built ps (.characteristic c)) : c.Belongs c.service :=
  Characteristic.Made.belongs h.made

/-- **A characteristic lies below the service that created it.** -/
theorem characteristic_below (h : Built ps (.characteristic c)) : c.Below c.service := by
  obtain ⟨qs, s, built, room, properties, first, t, hnew, hpath, hservice⟩ := h.hasCreator
  obtain ⟨rfl, -⟩ := Service.createCharacteristic_eq hnew
  refine ⟨⟨qs, s, built, hservice, properties, _, t, hnew, hpath, hservice⟩, rfl, ?_⟩
  obtain ⟨root, rooted⟩ := built.rooted
  obtain ⟨n, hn⟩ := rooted.path_eq
  refine ⟨s.created.toNat + 1, Nat.le_add_left _ _, ?_⟩
  rw [← hpath, ← hservice, hn, ObjectPath.text_push_numbered]
  congr 2
  exact room.toNat_succ

/-- **A descriptor lies below the characteristic that created it.** -/
theorem descriptor_below (h : Built ps (.descriptor d)) : d.Below d.characteristic := by
  obtain ⟨qs, c, built, room, properties, e, hnew⟩ := h.hasCreator
  obtain ⟨rfl, -⟩ := Characteristic.createDescriptor_eq hnew
  refine ⟨⟨qs, c, built, rfl, properties, e, hnew⟩, rfl, ?_⟩
  obtain ⟨n, hn⟩ := built.belongs.path_eq
  refine ⟨c.created.toNat + 1, Nat.le_add_left _ _, ?_⟩
  rw [hn, ObjectPath.text_push_numbered]
  congr 2
  exact room.toNat_succ

theorem service_shaped (h : Built ps (.service s)) : s.Shaped := by
  obtain ⟨root, rooted⟩ := h.rooted
  have hnodup : s.nodes.Nodup := rooted.nodup_paths.of_map
  refine ⟨rfl, fun c hc => ⟨?_, fun d hd => ?_⟩, rooted.nodup_paths, rooted.parentsFirst,
    fun c hc => ?_, fun c hc d hd => ?_⟩
  · exact List.count_eq_one_of_mem hnodup (Service.mem_nodes.2 (Or.inr ⟨c, hc, Or.inl rfl⟩))
  · exact List.count_eq_one_of_mem hnodup
      (Service.mem_nodes.2 (Or.inr ⟨c, hc, Or.inr ⟨d, hd, rfl⟩⟩))
  · obtain ⟨qs, built⟩ := h.characteristics hc
    rw [← (rooted.characteristics c hc).parent_eq]
    exact built.characteristic_below
  · obtain ⟨qs, built⟩ := h.characteristics hc
    obtain ⟨rs, hbuilt⟩ := built.descriptors hd
    rw [← (built.belongs.descriptors d hd).parent_eq]
    exact hbuilt.descriptor_below

/-- **Whatever is built has the shape of a subtree**, and whatever is offered to it is refused or
becomes its last part: refused it is if it was created below another path, or if something of the
same path is attached. -/
theorem shaped (h : Built ps (.service s)) :
    s.Shaped ∧
      (∀ qs c, Built qs (.characteristic c) → c.Below c.service ∧ s.Receives c) ∧
      ∀ qs c rs d, Built qs (.characteristic c) → Built rs (.descriptor d) →
        d.Below d.characteristic ∧ c.Receives d :=
  ⟨h.service_shaped, fun _ c hc => ⟨hc.characteristic_below, s.receives c⟩,
    fun _ c _ d _ hd => ⟨hd.descriptor_below, c.receives d⟩⟩

end Built

namespace Sample

/-- The battery before anything was attached to it. -/
def bareBattery : Service := .new batteryPath battery.properties true

/-- Its characteristic, just created. -/
def bareLevel : Characteristic := { level with created := 0, descriptors := [] }

theorem built_bareBattery : Built [] (.service bareBattery) :=
  @Built.service (.fresh 0 profile) _ _ _ _ rfl

theorem creates_bareLevel : (Piece.service bareBattery).Creates (.characteristic bareLevel)
    (.service { bareBattery with created := 1 }) :=
  @Piece.Creates.characteristic _ _ level.properties _ rfl

theorem creates_label : (Piece.characteristic bareLevel).Creates (.descriptor label)
    (.characteristic { bareLevel with created := 1 }) :=
  @Piece.Creates.descriptor _ _ label.properties _ rfl

theorem built_level : Built [label.path] (.characteristic level) := by
  have bare : Built [] (.characteristic bareLevel) :=
    .child built_bareBattery creates_bareLevel (by decide)
  have counted : Built [label.path] (.characteristic { bareLevel with created := 1 }) :=
    .creator bare creates_label (by decide)
  have offered : Built [] (.descriptor label) := .child bare creates_label (by decide)
  exact .whole counted offered (.descriptor rfl)

theorem built_battery : Built [levelPath] (.service battery) := by
  have counted : Built [levelPath] (.service { bareBattery with created := 1 }) :=
    .creator built_bareBattery creates_bareLevel (by decide)
  exact .whole counted built_level (.characteristic rfl)

end Sample

/-- The hypothesis is satisfiable: the battery has the shape of a subtree, and its characteristic
cannot be attached once more. -/
theorem Built.shaped_battery : Sample.battery.Shaped ∧
    Sample.battery.addCharacteristic Sample.level =
      .error (.characteristicAdded Sample.levelPath) := by
  obtain ⟨hshaped, hoffers, -⟩ := Built.shaped Sample.built_battery
  obtain ⟨-, hreceives⟩ := hoffers _ Sample.level Sample.built_level
  exact ⟨hshaped, hreceives.again rfl ⟨Sample.level, List.mem_cons_self, rfl⟩⟩

end GattServer
