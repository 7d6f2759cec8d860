/-
# Finite maps in order of insertion

A finite map is a list of entries whose keys are distinct.  A new key goes to the end, a known key
keeps its place and takes the new value, and removing a key leaves the order of the others.  So
two histories that add the same keys in the same order give the same map, whatever was added and
removed in between.

Looking a key up is the meaning of a map; each operation is described by what it does to `find?`.
-/

namespace GattServer

/-- A finite map from `κ` to `ν`: entries with distinct keys, in order of insertion. -/
structure FinMap (κ ν : Type) where
  /-- The entries, oldest key first. -/
  entries : List (κ × ν)
  /-- No key occurs twice. -/
  nodup : (entries.map Prod.fst).Nodup
  deriving DecidableEq

namespace FinMap

variable {κ ν : Type}

/-- The map without entries. -/
def empty : FinMap κ ν := ⟨[], .nil⟩

instance : EmptyCollection (FinMap κ ν) := ⟨empty⟩
instance : Inhabited (FinMap κ ν) := ⟨empty⟩

/-- The keys, oldest first. -/
def keys (m : FinMap κ ν) : List κ := m.entries.map Prod.fst

/-- The number of keys. -/
def size (m : FinMap κ ν) : Nat := m.entries.length

/-- Whether the map has no entries. -/
def isEmpty (m : FinMap κ ν) : Bool := m.entries.isEmpty

/-- The map with the keys outside `p` dropped. -/
def filterKeys (p : κ → Bool) (m : FinMap κ ν) : FinMap κ ν :=
  ⟨m.entries.filter fun e => p e.1, m.nodup.sublist (List.filter_sublist.map _)⟩

variable [DecidableEq κ]

/-- The value stored under a key. -/
def find? (m : FinMap κ ν) (k : κ) : Option ν :=
  (m.entries.find? fun e => e.1 = k).map Prod.snd

/-- Whether a key has a value. -/
def contains (m : FinMap κ ν) (k : κ) : Bool := (m.find? k).isSome

/-- The map with the value under `k`, if there is one, replaced by its image. -/
def modify (m : FinMap κ ν) (k : κ) (f : ν → ν) : FinMap κ ν :=
  ⟨m.entries.map fun e => if e.1 = k then (e.1, f e.2) else e, by
    have h : Prod.fst ∘ (fun e : κ × ν => if e.1 = k then (e.1, f e.2) else e) = Prod.fst := by
      funext e; by_cases he : e.1 = k <;> simp [he]
    simpa [h] using m.nodup⟩

/-- The map without the key `k`. -/
def erase (m : FinMap κ ν) (k : κ) : FinMap κ ν := m.filterKeys fun l => l ≠ k

/-- The map with `v` stored under `k`: in the place of the old value, or at the end. -/
def insert (m : FinMap κ ν) (k : κ) (v : ν) : FinMap κ ν :=
  if h : k ∈ m.keys then m.modify k fun _ => v
  else ⟨m.entries ++ [(k, v)], by
    simpa [List.nodup_append, keys] using
      ⟨m.nodup, fun a x hx hk => h (hk ▸ List.mem_map.2 ⟨(a, x), hx, rfl⟩)⟩⟩

/-- The map with the entries of a list stored one after the other. -/
def ofList (entries : List (κ × ν)) : FinMap κ ν :=
  entries.foldl (fun m e => m.insert e.1 e.2) empty

/-! ### What each operation does to `find?` -/

@[simp] theorem find?_empty (k : κ) : (∅ : FinMap κ ν).find? k = none := rfl

theorem mem_keys_iff {m : FinMap κ ν} {k : κ} : k ∈ m.keys ↔ (m.find? k).isSome := by
  simp [keys, find?, List.find?_isSome]

theorem find?_modify_self (m : FinMap κ ν) (k : κ) (f : ν → ν) :
    (m.modify k f).find? k = (m.find? k).map f := by
  simp only [find?, modify]
  induction m.entries with
  | nil => rfl
  | cons e es ih =>
    rw [List.map_cons, List.find?_cons, List.find?_cons]
    by_cases h : e.1 = k
    · simp [h]
    · simpa only [h, if_false, decide_false] using ih

theorem find?_modify_of_ne (m : FinMap κ ν) {k l : κ} (f : ν → ν) (h : l ≠ k) :
    (m.modify k f).find? l = m.find? l := by
  simp only [find?, modify]
  induction m.entries with
  | nil => rfl
  | cons e es ih =>
    rw [List.map_cons, List.find?_cons, List.find?_cons]
    by_cases hk : e.1 = k
    · have hl : k ≠ l := Ne.symm h
      simpa only [hk, hl, if_true, decide_false] using ih
    · rw [if_neg hk]
      by_cases hl : e.1 = l
      · simp [hl]
      · simpa only [hl, decide_false] using ih

theorem find?_insert_self (m : FinMap κ ν) (k : κ) (v : ν) : (m.insert k v).find? k = some v := by
  unfold insert
  split
  · next h =>
    obtain ⟨w, hw⟩ := Option.isSome_iff_exists.1 (mem_keys_iff.1 h)
    simp [find?_modify_self, hw]
  · next h =>
    have hn : m.entries.find? (fun e => e.1 = k) = none := by
      rw [List.find?_eq_none]
      exact fun e he hk => h (List.mem_map.2 ⟨e, he, by simpa using hk⟩)
    simp [find?, List.find?_append, hn]

theorem find?_insert_of_ne (m : FinMap κ ν) {k l : κ} (v : ν) (h : l ≠ k) :
    (m.insert k v).find? l = m.find? l := by
  unfold insert
  split
  · exact find?_modify_of_ne m _ h
  · simp [find?, List.find?_append, Ne.symm h]

theorem find?_filterKeys (m : FinMap κ ν) (p : κ → Bool) (k : κ) :
    (m.filterKeys p).find? k = if p k then m.find? k else none := by
  simp only [find?, filterKeys, List.find?_filter]
  by_cases h : p k = true
  · rw [if_pos h]
    congr 2
    funext e
    by_cases he : e.1 = k <;> simp [he, h]
  · have hn : m.entries.find? (fun e => p e.1 && decide (e.1 = k)) = none := by
      rw [List.find?_eq_none]
      intro e _ he
      simp only [Bool.and_eq_true, decide_eq_true_eq] at he
      exact h (he.2 ▸ he.1)
    simp [h, hn]

theorem find?_erase_self (m : FinMap κ ν) (k : κ) : (m.erase k).find? k = none := by
  simp [erase, find?_filterKeys]

theorem find?_erase_of_ne (m : FinMap κ ν) {k l : κ} (h : l ≠ k) :
    (m.erase k).find? l = m.find? l := by
  simp [erase, find?_filterKeys, h]

end FinMap
end GattServer
