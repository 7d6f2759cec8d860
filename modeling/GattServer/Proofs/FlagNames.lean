/-
# Words told by the names of their flags

A word of flags is shown as a list of names, and the words of a family are joined, met and compared
bit by bit.  The flags of a family and the table of their names are written down apart.  Where they
fit together, and the flags have different bits and different names (`FlagFamily.Distinguished`),
the names tell all of a word but the bits that belong to no flag: read back and joined they give the
word without such bits, and every operation on words is one on their names
(`Flags.told_by_names`).

Both sides are brought down to single bits.  The name in a row of the table is one of a word's if
the bit of the flag in that row is set (`FlagFamily.Distinguished.mem_names`), and a bit of a word
counts if it is the bit of a flag (`Flags.getLsbD_truncate`).
-/

import GattServer.Flags
import Mathlib.Data.List.Nodup

namespace GattServer

open FlagFamily (width all bit table)

/-- **A family whose flags can be told apart**, by their bits as well as by their names.  The bits
fit into a word, no flag is left out of the family or of the table, and the table has the order of
bits. -/
structure FlagFamily.Distinguished (φ : Type) [FlagFamily φ] : Prop where
  fits : ∀ f : φ, bit f < width φ
  listed : ∀ f : φ, f ∈ all
  tabled : ∀ f : φ, f ∈ (table : List (φ × String)).map Prod.fst
  ascending : (table : List (φ × String)).Pairwise fun row row' => bit row.1 < bit row'.1
  named : ((table : List (φ × String)).map Prod.snd).Nodup

theorem CharacteristicFlag.distinguished : FlagFamily.Distinguished CharacteristicFlag where
  fits f := by cases f <;> decide
  listed f := by cases f <;> decide
  tabled f := by cases f <;> decide
  ascending := by decide
  named := by decide

theorem DescriptorFlag.distinguished : FlagFamily.Distinguished DescriptorFlag where
  fits f := by cases f <;> decide
  listed f := by cases f <;> decide
  tabled f := by cases f <;> decide
  ascending := by decide
  named := by decide

namespace Flags

variable {φ : Type} [FlagFamily φ] {a b : Flags φ} {f : φ} {fs : List φ} {i : Nat}

/-! ### Words bit by bit -/

theorem ext_bits (h : ∀ i < width φ, a.bits.getLsbD i = b.bits.getLsbD i) : a = b := by
  cases a
  cases b
  exact congrArg mk (BitVec.eq_of_getLsbD_eq h)

theorem getLsbD_empty : (empty : Flags φ).bits.getLsbD i = false := BitVec.getLsbD_zero

theorem getLsbD_ofList : (ofList fs).bits.getLsbD i = true ↔
    i < width φ ∧ ∃ f ∈ fs, bit f = i := by
  induction fs with
  | nil => simp [ofList, getLsbD_empty]
  | cons f fs ih =>
    have hcons : (ofList (f :: fs)).bits = BitVec.twoPow _ (bit f) ||| (ofList fs).bits := rfl
    rw [hcons, BitVec.getLsbD_or, Bool.or_eq_true, ih, BitVec.getLsbD_twoPow]
    simp only [Bool.and_eq_true, decide_eq_true_eq, List.exists_mem_cons_iff]
    constructor
    · rintro (⟨hf, rfl⟩ | ⟨hi, h⟩)
      · exact ⟨hf, Or.inl rfl⟩
      · exact ⟨hi, Or.inr h⟩
    · rintro ⟨hi, rfl | h⟩
      · exact Or.inl ⟨hi, rfl⟩
      · exact Or.inr ⟨hi, h⟩

/-- **Clearing the unknown bits** leaves those of flags. -/
theorem getLsbD_truncate : a.truncate.bits.getLsbD i = true ↔
    a.bits.getLsbD i = true ∧ ∃ f ∈ (all : List φ), bit f = i := by
  have htruncate : a.truncate.bits = a.bits &&& (ofList all).bits := rfl
  rw [htruncate, BitVec.getLsbD_and, Bool.and_eq_true, getLsbD_ofList]
  exact ⟨fun h => ⟨h.1, h.2.2⟩, fun h => ⟨h.1, BitVec.lt_of_getLsbD h.1, h.2⟩⟩

theorem contains_iff : a.contains b = true ↔
    ∀ i, b.bits.getLsbD i = true → a.bits.getLsbD i = true := by
  rw [contains, decide_eq_true_iff]
  constructor
  · intro h i hi
    have hboth : (a.inter b).bits.getLsbD i = true := by rw [h, hi]
    rw [inter, BitVec.getLsbD_and, Bool.and_eq_true] at hboth
    exact hboth.1
  · intro h
    refine ext_bits fun i _ => ?_
    rw [inter, BitVec.getLsbD_and]
    cases hb : b.bits.getLsbD i with
    | false => exact Bool.and_false _
    | true => rw [h i hb, Bool.and_true]

theorem intersects_iff : a.intersects b = true ↔
    ∃ i, a.bits.getLsbD i = true ∧ b.bits.getLsbD i = true := by
  rw [intersects, decide_eq_true_iff]
  constructor
  · intro h
    by_contra hnone
    refine h (ext_bits fun i _ => ?_)
    have hi := not_exists.1 hnone i
    rw [inter, BitVec.getLsbD_and, getLsbD_empty]
    simpa using hi
  · rintro ⟨i, ha, hb⟩ h
    have hboth : (a.inter b).bits.getLsbD i = false := by rw [h, getLsbD_empty]
    rw [inter, BitVec.getLsbD_and, ha, hb] at hboth
    cases hboth

/-- In a word without unknown bits, every bit that is set is that of a flag. -/
theorem exists_flag (known : b.isKnown = true) (h : b.bits.getLsbD i = true) :
    ∃ f : φ, bit f = i := by
  have hknown : b.truncate = b := of_decide_eq_true known
  rw [← hknown, getLsbD_truncate] at h
  obtain ⟨f, -, hf⟩ := h.2
  exact ⟨f, hf⟩

/-! ### Flags of a word -/

/-- The bit of a flag is set. -/
def Has (a : Flags φ) (f : φ) : Prop := a.bits.getLsbD (bit f) = true

theorem has_union : (a.union b).Has f ↔ a.Has f ∨ b.Has f := by
  rw [Has, union, BitVec.getLsbD_or, Bool.or_eq_true]
  rfl

theorem has_inter : (a.inter b).Has f ↔ a.Has f ∧ b.Has f := by
  rw [Has, inter, BitVec.getLsbD_and, Bool.and_eq_true]
  rfl

theorem has_diff : (a.diff b).Has f ↔ a.Has f ∧ ¬ b.Has f := by
  rw [Has, diff, BitVec.getLsbD_and, BitVec.getLsbD_not, Has, Has]
  simp only [Bool.and_eq_true, decide_eq_true_eq, Bool.not_eq_true', Bool.not_eq_true]
  -- a bit that is set lies within the word
  exact and_congr_right fun ha => and_iff_right (BitVec.lt_of_getLsbD ha)

end Flags

/-! ### Names -/

namespace FlagFamily.Distinguished

open Flags (named?)

variable {φ : Type} [FlagFamily φ] {a c : Flags φ} {f : φ} {row : φ × String}

theorem contains_single (told : Distinguished φ) :
    a.contains (.single f) = true ↔ a.Has f := by
  rw [Flags.contains_iff]
  simp only [Flags.single, BitVec.getLsbD_twoPow, Bool.and_eq_true, decide_eq_true_eq]
  exact ⟨fun h => h _ ⟨told.fits f, rfl⟩, fun h i hi => hi.2 ▸ h⟩

theorem mem_rows (told : Distinguished φ) : row ∈ a.rows ↔ row ∈ table ∧ a.Has row.1 := by
  rw [Flags.rows, List.mem_filter, told.contains_single]

theorem mem_toList (told : Distinguished φ) : f ∈ a.toList ↔ a.Has f := by
  rw [Flags.toList, List.mem_map]
  constructor
  · rintro ⟨row, hrow, rfl⟩
    exact (told.mem_rows.1 hrow).2
  · intro hf
    obtain ⟨row, hrow, rfl⟩ := List.mem_map.1 (told.tabled f)
    exact ⟨row, told.mem_rows.2 ⟨hrow, hf⟩, rfl⟩

/-- Rows of the same name are the same. -/
theorem row_eq (told : Distinguished φ) {row' : φ × String} (h : row ∈ table)
    (h' : row' ∈ table) (hname : row.2 = row'.2) : row = row' :=
  List.inj_on_of_nodup_map told.named h h' hname

/-- **A flag is named exactly if its bit is set.** -/
theorem mem_names (told : Distinguished φ) (h : row ∈ table) :
    row.2 ∈ a.names ↔ a.Has row.1 := by
  rw [Flags.names, List.mem_map]
  constructor
  · rintro ⟨row', hrow', hname⟩
    obtain ⟨htable, hhas⟩ := told.mem_rows.1 hrow'
    rwa [told.row_eq h htable hname.symm]
  · exact fun hhas => ⟨row, told.mem_rows.2 ⟨h, hhas⟩, rfl⟩

/-- **A name reads back as the flag of its row.** -/
theorem named?_eq (told : Distinguished φ) (h : row ∈ table) : named? row.2 = some row.1 := by
  rw [named?]
  cases hfind : (table : List (φ × String)).find? fun row' => row'.2 = row.2 with
  | none => simpa using List.find?_eq_none.1 hfind row h
  | some row' =>
    have hname : row'.2 = row.2 := by simpa using List.find?_some hfind
    rw [told.row_eq (List.mem_of_find?_eq_some hfind) h hname, Option.map_some]

/-- **A word has the names of its flags, in the order of the table.** -/
theorem names_eq_filter (told : Distinguished φ) {P : String → Prop} [DecidablePred P]
    (h : ∀ row ∈ (table : List (φ × String)), c.Has row.1 ↔ P row.2) :
    c.names = ((table : List (φ × String)).map Prod.snd).filter fun s => P s := by
  rw [List.filter_map]
  refine congrArg (List.map Prod.snd) (List.filter_congr fun row hrow => ?_)
  rw [Function.comp_apply, Bool.eq_iff_iff, told.contains_single, h row hrow, decide_eq_true_iff]

/-- The flags of a word, joined, are the word with its unknown bits cleared. -/
theorem ofList_toList (told : Distinguished φ) : Flags.ofList a.toList = a.truncate := by
  refine Flags.ext_bits fun i hi => ?_
  rw [Bool.eq_iff_iff, Flags.getLsbD_ofList, Flags.getLsbD_truncate]
  constructor
  · rintro ⟨-, f, hf, rfl⟩
    exact ⟨told.mem_toList.1 hf, f, told.listed f, rfl⟩
  · rintro ⟨ha, f, -, rfl⟩
    exact ⟨hi, f, told.mem_toList.2 ha, rfl⟩

end FlagFamily.Distinguished

namespace Flags

variable {φ : Type} [FlagFamily φ]

/-- The flags that a word lacks. -/
def compl (b : Flags φ) : Flags φ := truncate ⟨~~~b.bits⟩

/-- **Two words are told by their names.**  The order of names is that of the table, which is the
order of bits. -/
structure ToldByNames (a b : Flags φ) : Prop where
  /-- No name of a word occurs twice. -/
  distinct : a.names.Nodup
  /-- The names read back as flags in ascending order of their bits, and these flags, joined, are
  the word with its unknown bits cleared. -/
  readBack : ∃ fs : List φ, a.names.map named? = fs.map some ∧
    (fs.map bit).Pairwise (· < ·) ∧ ofList fs = a.truncate
  /-- A joined word has the names of either. -/
  union : (a.union b).names =
    ((table : List (φ × String)).map Prod.snd).filter fun s => s ∈ a.names ∨ s ∈ b.names
  /-- What the words have in common has the names of both. -/
  inter : (a.inter b).names =
    ((table : List (φ × String)).map Prod.snd).filter fun s => s ∈ a.names ∧ s ∈ b.names
  /-- Without the bits of the second, the first word has the names that are its alone. -/
  diff : (a.diff b).names =
    ((table : List (φ × String)).map Prod.snd).filter fun s => s ∈ a.names ∧ s ∉ b.names
  /-- It does not matter whether unknown bits are taken away too. -/
  compl : (a.inter b.compl).names = (a.diff b).names
  /-- A word contains another one exactly if it has all its names. -/
  contains : b.isKnown = true → (a.contains b = true ↔ ∀ s ∈ b.names, s ∈ a.names)
  /-- Words meet exactly if they share a name. -/
  intersects : b.isKnown = true → (a.intersects b = true ↔ ∃ s ∈ b.names, s ∈ a.names)

variable {a b : Flags φ}

theorem has_compl (told : FlagFamily.Distinguished φ) {f : φ} : b.compl.Has f ↔ ¬ b.Has f := by
  rw [Has, compl, getLsbD_truncate, BitVec.getLsbD_not, Has]
  have hflag : ∃ g ∈ (all : List φ), bit g = bit f := ⟨f, told.listed f, rfl⟩
  simp [told.fits f, hflag]

/-- A word without unknown bits is contained in another one if its flags are. -/
theorem contains_iff_has (known : b.isKnown = true) :
    a.contains b = true ↔ ∀ f, b.Has f → a.Has f := by
  rw [contains_iff]
  refine ⟨fun h f => h (bit f), fun h i hi => ?_⟩
  obtain ⟨f, rfl⟩ := exists_flag known hi
  exact h f hi

/-- A word without unknown bits meets another one in a flag. -/
theorem intersects_iff_has (known : b.isKnown = true) :
    a.intersects b = true ↔ ∃ f, b.Has f ∧ a.Has f := by
  rw [intersects_iff]
  constructor
  · rintro ⟨i, ha, hb⟩
    obtain ⟨f, rfl⟩ := exists_flag known hb
    exact ⟨f, hb, ha⟩
  · rintro ⟨f, hb, ha⟩
    exact ⟨bit f, ha, hb⟩

/-- **Words of a family whose flags can be told apart** are told by their names. -/
theorem ToldByNames.of_distinguished (told : FlagFamily.Distinguished φ) (a b : Flags φ) :
    a.ToldByNames b where
  distinct := by
    rw [told.names_eq_filter fun row hrow => (told.mem_names hrow).symm]
    exact told.named.filter _
  readBack := by
    refine ⟨a.toList, ?_, ?_, told.ofList_toList⟩
    · rw [names, toList, List.map_map, List.map_map]
      exact List.map_congr_left fun row hrow => told.named?_eq (told.mem_rows.1 hrow).1
    · rw [toList, List.map_map]
      exact List.pairwise_map.2 (told.ascending.filter _)
  union := told.names_eq_filter fun row hrow => by
    rw [has_union, told.mem_names hrow, told.mem_names hrow]
  inter := told.names_eq_filter fun row hrow => by
    rw [has_inter, told.mem_names hrow, told.mem_names hrow]
  diff := told.names_eq_filter fun row hrow => by
    rw [has_diff, told.mem_names hrow, told.mem_names hrow]
  compl := by
    rw [told.names_eq_filter fun row hrow => (told.mem_names hrow).symm]
    refine (told.names_eq_filter fun row hrow => ?_).symm
    rw [told.mem_names hrow, has_inter, has_compl told, has_diff]
  contains known := by
    rw [contains_iff_has known, names, List.forall_mem_map]
    constructor
    · intro h row hrow
      obtain ⟨htable, hb⟩ := told.mem_rows.1 hrow
      exact (told.mem_names htable).2 (h row.1 hb)
    · intro h f hb
      obtain ⟨row, htable, rfl⟩ := List.mem_map.1 (told.tabled f)
      exact (told.mem_names htable).1 (h row (told.mem_rows.2 ⟨htable, hb⟩))
  intersects known := by
    rw [intersects_iff_has known]
    constructor
    · rintro ⟨f, hb, ha⟩
      obtain ⟨row, htable, rfl⟩ := List.mem_map.1 (told.tabled f)
      exact ⟨row.2, (told.mem_names htable).2 hb, (told.mem_names htable).2 ha⟩
    · rintro ⟨s, hs, ha⟩
      obtain ⟨row, hrow, rfl⟩ := List.mem_map.1 hs
      obtain ⟨htable, hb⟩ := told.mem_rows.1 hrow
      exact ⟨row.1, hb, (told.mem_names htable).1 ha⟩

/-- **The names of flags are a faithful encoding** of words, for the flags of characteristics and
for those of descriptors. -/
theorem told_by_names :
    (∀ a b : CharacteristicFlags, a.ToldByNames b) ∧ ∀ a b : DescriptorFlags, a.ToldByNames b :=
  ⟨ToldByNames.of_distinguished CharacteristicFlag.distinguished,
    ToldByNames.of_distinguished DescriptorFlag.distinguished⟩

/-- The hypotheses are satisfiable: a word with a bit that belongs to no flag tells nothing of it,
and contains another word since it has its name. -/
theorem told_by_names_unknownBit :
    (⟨0x8000000a⟩ : CharacteristicFlags).names = ["read", "write"] ∧
      (single CharacteristicFlag.write).isKnown = true ∧
      (⟨0x8000000a⟩ : CharacteristicFlags).contains (single .write) = true :=
  have known : (single CharacteristicFlag.write).isKnown = true := by decide
  ⟨by decide, known, ((told_by_names.1 ⟨0x8000000a⟩ (single .write)).contains known).2 (by decide)⟩

end Flags
end GattServer
