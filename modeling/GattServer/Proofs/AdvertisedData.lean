/-
# What an advertisement tells

An advertisement gives its properties twice: in the table that it declares, and one by one in the
object that is exported for it.  Both tell the same, name by name
(`Object.properties_advertisement`), so whoever asks the object for all properties of its interface
is told what was declared.

Nothing is lost on the way.  Data is kept under numbers and UUIDs and told in dictionaries, those of
services under the texts of their UUIDs, and lists of UUIDs are told as texts.  Different UUIDs have
different texts, and a UUID reads back from its text (`Uuid.ofText?_text`); so each dictionary reads
back as the map it was made from, and in the end all of the advertisement does
(`AdvertisementProperties.read?_table`).
-/

import GattServer.Proofs.Beside
import GattServer.Proofs.Inquiry
import GattServer.Proofs.RoundTrip

namespace GattServer

/-! ### Maps and their entries -/

namespace FinMap

variable {κ ν : Type} [DecidableEq κ]

theorem entries_foldl_insert {es : List (κ × ν)} {m : FinMap κ ν}
    (h : (m.keys ++ es.map Prod.fst).Nodup) :
    (es.foldl (fun m e => m.insert e.1 e.2) m).entries = m.entries ++ es := by
  induction es generalizing m with
  | nil => exact (List.append_nil _).symm
  | cons e es ih =>
    have hnew : e.1 ∉ m.keys := fun he =>
      (List.nodup_append.1 h).2.2 e.1 he e.1 List.mem_cons_self rfl
    have hentries := entries_insert_of_notMem (v := e.2) hnew
    have hkeys : (m.insert e.1 e.2).keys = m.keys ++ [e.1] := by
      rw [keys, hentries, List.map_append]
      rfl
    rw [List.foldl_cons, ih (by simpa [hkeys] using h), hentries, List.append_assoc]
    rfl

/-- **Entries with different keys are all kept**, in their order. -/
theorem entries_ofList {es : List (κ × ν)} (h : (es.map Prod.fst).Nodup) :
    (ofList es).entries = es :=
  entries_foldl_insert (m := empty) h

theorem ofList_entries (m : FinMap κ ν) : ofList m.entries = m :=
  ext_entries (entries_ofList m.nodup)

end FinMap

/-! ### Properties by name -/

namespace Object

variable {o : Object} {name : String} {v : Value}

theorem nodup_propertyNames (kind : ObjectKind) : kind.propertyNames.Nodup := by
  cases kind <;> decide

/-- **An object tells the properties that it answers for**, each by its name. -/
theorem entries_properties_eq (o : Object) : o.properties.entries =
    o.kind.propertyNames.filterMap fun name => (o.property? name).map (name, ·) := by
  refine FinMap.entries_ofList ?_
  have hkeys : ((o.kind.propertyNames.filterMap fun name =>
      (o.property? name).map (name, ·)).map Prod.fst) =
      o.kind.propertyNames.filter fun name => (o.property? name).isSome := by
    rw [List.map_filterMap, ← List.filterMap_eq_filter]
    refine List.filterMap_congr fun name _ => ?_
    cases hproperty : o.property? name <;> simp [Option.guard, hproperty]
  rw [hkeys]
  exact (nodup_propertyNames o.kind).filter _

/-- An object answers for no property but those of its kind. -/
theorem mem_propertyNames (h : o.property? name = some v) : name ∈ o.kind.propertyNames := by
  cases o with
  | objectManager => cases h
  | service | characteristic | descriptor | advertisement =>
    simp only [property?, ServiceProperties.property?, CharacteristicObject.property?,
      DescriptorObject.property?, Advertisement.property?] at h
    split at h <;> simp_all [kind, ObjectKind.propertyNames]

/-- **Asked for all or for one, an object tells the same.** -/
theorem find?_properties (o : Object) (name : String) :
    o.properties.find? name = o.property? name := by
  refine Option.ext fun v => ⟨fun h => ?_, fun h => ?_⟩
  · obtain ⟨e, he, rfl⟩ := Option.map_eq_some_iff.1 h
    obtain rfl : e.1 = name := by simpa using List.find?_some he
    have hmem := List.mem_of_find?_eq_some he
    rw [entries_properties_eq, List.mem_filterMap] at hmem
    obtain ⟨other, -, hother⟩ := hmem
    obtain ⟨w, hw, rfl⟩ := Option.map_eq_some_iff.1 hother
    exact hw
  · refine FinMap.find?_of_mem ?_
    rw [entries_properties_eq, List.mem_filterMap]
    exact ⟨name, mem_propertyNames h, by rw [h]; rfl⟩

/-- **An exported advertisement tells what it declares.** -/
theorem properties_advertisement (a : Advertisement) :
    (Object.advertisement a).properties = a.properties.table.map := by
  simp only [properties, kind, ObjectKind.propertyNames, List.filterMap_cons, List.filterMap_nil,
    property?, Advertisement.property?, Option.map_some, AdvertisementProperties.table,
    PropertyTable.ofList, AdvertisementProperties.uuidTexts]

end Object

/-! ### Reading back -/

namespace Value

/-- The text that a value is. -/
def text? : Value → Option String
  | .plain (.text s) => some s
  | _ => none

/-- The texts that a value is. -/
def texts? : Value → Option (List String)
  | .plain (.texts ss) => some ss
  | _ => none

/-- The bytes that a value is. -/
def bytes? : Value → Option (List UInt8)
  | .plain (.bytes bs) => some bs
  | _ => none

/-- The 16-bit number that a value is. -/
def uint16? : Value → Option UInt16
  | .plain (.uint16 n) => some n
  | _ => none

/-- The UUIDs that a value lists, in order. -/
def uuids? (v : Value) : Option (List Uuid) :=
  v.texts?.bind fun ss => ss.mapM fun s => (Uuid.ofText? s).toOption

/-- The bytes that a value holds under numbers. -/
def bytesByNumber? : Value → Option (FinMap UInt16 (List UInt8))
  | .numbered es => (es.mapM fun e : UInt16 × Value => e.2.bytes?.map (e.1, ·)).map .ofList
  | _ => none

/-- The bytes that a value holds under the texts of UUIDs. -/
def bytesByUuid? : Value → Option (FinMap Uuid (List UInt8))
  | .named es =>
    (es.mapM fun e : String × Value =>
      (Uuid.ofText? e.1).toOption.bind fun u => e.2.bytes?.map (u, ·)).map .ofList
  | _ => none

end Value

/-- The kind of packet of a word. -/
def AdvertisementType.ofWord? : String → Option AdvertisementType
  | "broadcast" => some .broadcast
  | "peripheral" => some .peripheral
  | _ => none

namespace AdvertisementProperties

/-- Reads an advertisement from its properties by name. -/
def read? (m : PropertyMap) : Option AdvertisementProperties := do
  return {
    type := ← ((m.find? "Type").bind Value.text?).bind AdvertisementType.ofWord?
    serviceUuids := ← (m.find? "ServiceUUIDs").bind Value.uuids?
    manufacturerData := ← (m.find? "ManufacturerData").bind Value.bytesByNumber?
    solicitUuids := ← (m.find? "SolicitUUIDs").bind Value.uuids?
    serviceData := ← (m.find? "ServiceData").bind Value.bytesByUuid?
    includes := ← (m.find? "Includes").bind Value.texts?
    localName := ← (m.find? "LocalName").bind Value.text?
    appearance := ← (m.find? "Appearance").bind Value.uint16?
    duration := ← (m.find? "Duration").bind Value.uint16?
    timeout := ← (m.find? "Timeout").bind Value.uint16? }

end AdvertisementProperties

/-- What is made into something that reads back, one by one, reads back as a list. -/
theorem mapM_map_eq_some {α β : Type} {f : α → β} {g : β → Option α}
    (h : ∀ a, g (f a) = some a) (l : List α) : (l.map f).mapM g = some l := by
  induction l with
  | nil => rfl
  | cons a l ih =>
    rw [List.map_cons, List.mapM_cons, h, ih]
    rfl

namespace AdvertisementProperties

variable (p : AdvertisementProperties)

theorem toOption_ofText? (u : Uuid) : (Uuid.ofText? u.text).toOption = some u := by
  rw [Uuid.ofText?_text]
  rfl

theorem uuids?_texts (uuids : List Uuid) :
    (Value.texts (uuids.map Uuid.text)).uuids? = some uuids :=
  mapM_map_eq_some (g := fun s => (Uuid.ofText? s).toOption) toOption_ofText? uuids

theorem bytesByNumber?_manufacturerDict :
    p.manufacturerDict.bytesByNumber? = some p.manufacturerData := by
  have hentries := mapM_map_eq_some (f := fun e : UInt16 × List UInt8 => (e.1, Value.bytes e.2))
    (g := fun e : UInt16 × Value => e.2.bytes?.map (e.1, ·)) (fun _ => rfl)
    p.manufacturerData.entries
  rw [manufacturerDict, Value.bytesByNumber?, hentries, Option.map_some, FinMap.ofList_entries]

theorem bytesByUuid?_serviceDict : p.serviceDict.bytesByUuid? = some p.serviceData := by
  have hentries := mapM_map_eq_some (f := fun e : Uuid × List UInt8 => (e.1.text, Value.bytes e.2))
    (g := fun e : String × Value =>
      (Uuid.ofText? e.1).toOption.bind fun u => e.2.bytes?.map (u, ·))
    (fun e => by rw [toOption_ofText?]; rfl) p.serviceData.entries
  rw [serviceDict, Value.bytesByUuid?, hentries, Option.map_some, FinMap.ofList_entries]

/-- Different UUIDs are told under different texts. -/
theorem nodup_serviceDict : (p.serviceData.entries.map fun e => e.1.text).Nodup := by
  have hkeys := p.serviceData.nodup.map Uuid.text_injective
  rwa [List.map_map] at hkeys

/-! ### The table -/

theorem find?_table (name : String) :
    p.table.map.find? name = (⟨.root, p⟩ : Advertisement).property? name := by
  rw [← Object.properties_advertisement ⟨.root, p⟩, Object.find?_properties]
  rfl

theorem ofWord?_word (t : AdvertisementType) : AdvertisementType.ofWord? t.word = some t := by
  cases t <;> rfl

/-- **An advertisement reads back from its table.** -/
theorem read?_table : read? p.table.map = some p := by
  have htype : (Value.text p.type.word).text?.bind AdvertisementType.ofWord? = some p.type :=
    ofWord?_word p.type
  simp only [read?, find?_table, Advertisement.property?, Option.bind_some]
  rw [htype, uuids?_texts, uuids?_texts, bytesByNumber?_manufacturerDict, bytesByUuid?_serviceDict]
  rfl

end AdvertisementProperties

namespace Advertisement

/-- **An exported advertisement tells all it declares.**  It declares one interface.  Asked for all
properties of this interface the object tells the same, with the same types and values, and asked
for one it tells that one.  The data by company and that by service read back as they are, and no
two UUIDs have one text; the lists of UUIDs read back in order, with repetitions; and so does the
rest. -/
theorem told_as_declared {a : Advertisement} {k : Connection} {path : ObjectPath}
    (exported : k.objects.object? path .advertisement = some (.advertisement a)) :
    ∃ told : PropertyMap,
      a.interfaces.entries = [(Interface.advertisement, told)] ∧
      (k.receive (.getAll path Interface.advertisement)).1 =
        .reply (.ok (.value (.named told.entries))) ∧
      (∀ name, (k.receive (.get path Interface.advertisement name)).1 = .reply
        ((told.find? name).elim (.error (.unknownProperty name)) fun v =>
          .ok (.value (.variant v)))) ∧
      (told.find? "ManufacturerData").bind Value.bytesByNumber? =
        some a.properties.manufacturerData ∧
      (∃ entries, told.find? "ServiceData" = some (.named entries) ∧
        (entries.map Prod.fst).Nodup ∧
        (Value.named entries).bytesByUuid? = some a.properties.serviceData) ∧
      (told.find? "ServiceUUIDs").bind Value.uuids? = some a.properties.serviceUuids ∧
      (told.find? "SolicitUUIDs").bind Value.uuids? = some a.properties.solicitUuids ∧
      AdvertisementProperties.read? told = some a.properties := by
  have hget := Connection.receive_get_eq exported
  have hall := Connection.receive_getAll exported
  simp only [← Object.find?_properties, Object.properties_advertisement] at hget hall
  refine ⟨a.properties.table.map, rfl, hall, hget, ?_,
    ⟨a.properties.serviceData.entries.map fun e => (e.1.text, .bytes e.2), ?_, ?_, ?_⟩, ?_, ?_,
    a.properties.read?_table⟩
  · rw [AdvertisementProperties.find?_table]
    exact a.properties.bytesByNumber?_manufacturerDict
  · rw [AdvertisementProperties.find?_table]
    rfl
  · rw [List.map_map]
    exact a.properties.nodup_serviceDict
  · exact a.properties.bytesByUuid?_serviceDict
  · rw [AdvertisementProperties.find?_table]
    exact AdvertisementProperties.uuids?_texts _
  · rw [AdvertisementProperties.find?_table]
    exact AdvertisementProperties.uuids?_texts _

/-- An advertisement with data of one company and of two services, that names a service twice. -/
def sensor : Advertisement where
  path := advertisementPath
  properties :=
    { serviceUuids := [.ofAlias 0x180D, .ofAlias 0x180F, .ofAlias 0x180D]
      manufacturerData := .ofList [(0xFFFF, [1, 2])]
      serviceData := .ofList [(.ofAlias 0x180D, [60]), (.ofAlias 0x180F, [])] }

/-- The hypothesis is satisfiable: this is told of an advertisement once it is exported. -/
theorem told_as_declared_sensor :
    let k := (Connection.fresh.perform {}
      (.exportObject sensor.path (.advertisement sensor))).connection
    ∃ told : PropertyMap,
      (k.receive (.getAll sensor.path Interface.advertisement)).1 =
        .reply (.ok (.value (.named told.entries))) ∧
      (told.find? "ServiceUUIDs").bind Value.uuids? =
        some [.ofAlias 0x180D, .ofAlias 0x180F, .ofAlias 0x180D] ∧
      AdvertisementProperties.read? told = some sensor.properties := by
  intro k
  have exported : k.objects.object? sensor.path .advertisement = some (.advertisement sensor) := by
    decide +kernel
  obtain ⟨told, -, hall, -, -, -, huuids, -, hread⟩ := told_as_declared exported
  exact ⟨told, hall, huuids, hread⟩

end Advertisement
end GattServer
