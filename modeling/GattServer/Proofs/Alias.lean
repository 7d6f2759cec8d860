/-
# Sixteen-bit aliases and generated UUIDs

A UUID is taken apart into its alias and everything else, like a record into a field and the rest
(`Uuid.withAlias_withAlias`, `Uuid.withAlias_self`).  So it has an alias exactly if it is the UUID
that the alias stands for (`Uuid.alias?_eq_some_iff`).

An application makes UUIDs from short values by putting texts around them.  With the standard texts
the result is read exactly if the value is made of four or of eight hexadecimal digits, and four
digits are the alias of the UUID they make (`Application.generated_uuids`).  A value of another
length, or with other characters in it, makes a text of another length or one with a wrong digit.
-/

import GattServer.Application.Basic
import GattServer.Proofs.Template
import Mathlib.Data.List.Forall2
import Mathlib.Data.Nat.Digits.Defs

namespace GattServer
namespace Uuid

variable {u : Uuid} {n : UInt16} {a b c d : UInt8}

/-! ### The place of aliases -/

theorem withAlias_withAlias : (u.withAlias a b).withAlias c d = u.withAlias c d := by
  refine eq_of_bytes ?_
  simp only [withAlias]
  rw [List.set_comm _ _ (by decide), List.set_set, List.set_comm _ _ (by decide), List.set_set]

theorem withAlias_self : u.withAlias (u.bytes.getD 2 0) (u.bytes.getD 3 0) = u := by
  obtain ⟨bytes, h⟩ := u
  refine eq_of_bytes ?_
  simp only [withAlias]
  simp [List.getD_eq_getElem?_getD, h]

theorem getD_withAlias_high : (u.withAlias a b).bytes.getD 2 0 = a := by
  simp [withAlias, u.length_bytes]

theorem getD_withAlias_low : (u.withAlias a b).bytes.getD 3 0 = b := by
  simp [withAlias, u.length_bytes]

theorem ofAlias_bytes : ofAlias (UInt16.ofNat (256 * a.toNat + b.toNat)) = base.withAlias a b := by
  have ha := a.toNat_lt
  have hb := b.toNat_lt
  have hn : (UInt16.ofNat (256 * a.toNat + b.toNat)).toNat = 256 * a.toNat + b.toNat :=
    UInt16.toNat_ofNat_of_lt' (show _ < 65536 by omega)
  have hhigh : (256 * a.toNat + b.toNat) / 256 = a.toNat := by omega
  have hlow : UInt8.ofNat (256 * a.toNat + b.toNat) = b := by
    rw [← UInt8.toNat_inj, UInt8.toNat_ofNat']
    omega
  rw [ofAlias, hn, hhigh, hlow, UInt8.ofNat_toNat]

/-- **A UUID has an alias exactly if the alias stands for it.** -/
theorem alias?_eq_some_iff : u.alias? = some n ↔ u = ofAlias n := by
  constructor
  · intro h
    unfold alias? at h
    split at h
    · rename_i hbase
      rw [← Option.some.inj h, ofAlias_bytes, ← hbase, withAlias_withAlias, withAlias_self]
    · cases h
  · rintro rfl
    have hbase : (ofAlias n).withAlias 0 0 = base := by
      rw [ofAlias, withAlias_withAlias]
      rfl
    have hn := n.toNat_lt
    have hbytes : 256 * (UInt8.ofNat (n.toNat / 256)).toNat + (UInt8.ofNat n.toNat).toNat =
        n.toNat := by
      rw [UInt8.toNat_ofNat', UInt8.toNat_ofNat']
      omega
    rw [alias?, if_pos hbase, ofAlias, getD_withAlias_high, getD_withAlias_low, hbytes,
      UInt16.ofNat_toNat]

/-! ### Numbers in digits -/

variable {cs bs : List UInt8} {values : List Nat} {k : Nat}

/-- A text spells a number in hexadecimal digits, the most significant one first. -/
def Numeral (cs : List UInt8) (n : Nat) : Prop :=
  ∃ values, List.Forall₂ Spells cs values ∧ Nat.ofDigits 16 values.reverse = n

/-- A text is made of hexadecimal digits, as many as given. -/
def HexDigits (count : Nat) (s : String) : Prop :=
  (Text.bytes s).length = count ∧ ∀ c ∈ Text.bytes s, ∃ n, Spells c n

/-- The bytes that pairs of digits stand for. -/
def pairsOf : List Nat → List UInt8
  | high :: low :: values => UInt8.ofNat (16 * high + low) :: pairsOf values
  | _ => []

theorem Spells.lt {c : UInt8} {n : Nat} (h : Spells c n) : n < 16 :=
  digitValue?_lt (digitValue?_eq_some_iff.2 h)

theorem rightUnique_spells : Relator.RightUnique Spells := fun _ _ _ hm hn =>
  Option.some.inj ((digitValue?_eq_some_iff.2 hm).symm.trans (digitValue?_eq_some_iff.2 hn))

/-- The number that digits spell is that of their values. -/
theorem numeral_iff {m : Nat} (h : List.Forall₂ Spells cs values) :
    Numeral cs m ↔ Nat.ofDigits 16 values.reverse = m :=
  ⟨fun ⟨_, h', heq⟩ => rightUnique_spells.forall₂ h' h ▸ heq, fun heq => ⟨values, h, heq⟩⟩

theorem exists_values (h : ∀ c ∈ cs, ∃ n, Spells c n) :
    ∃ values, List.Forall₂ Spells cs values := by
  induction cs with
  | nil => exact ⟨[], .nil⟩
  | cons c cs ih =>
    obtain ⟨⟨n, hn⟩, hrest⟩ := List.forall_mem_cons.1 h
    obtain ⟨values, hvalues⟩ := ih hrest
    exact ⟨n :: values, .cons hn hvalues⟩

/-- **Pairs are read exactly from digits**, and give the bytes that these stand for. -/
theorem reads_pairs_iff : Reads (List.replicate k .pair) cs bs ↔
    ∃ values, values.length = 2 * k ∧ List.Forall₂ Spells cs values ∧ bs = pairsOf values := by
  induction k generalizing cs bs with
  | zero =>
    constructor
    · rintro ⟨⟩
      exact ⟨[], rfl, .nil, rfl⟩
    · rintro ⟨values, hlength, hcs, rfl⟩
      obtain rfl := List.length_eq_zero_iff.1 hlength
      cases hcs
      exact .nil
  | succ k ih =>
    rw [List.replicate_succ]
    constructor
    · rintro (_ | _ | @⟨_, c, d, _, _, high, low, hc, hd, rest⟩)
      obtain ⟨values, hlength, hcs, rfl⟩ := ih.1 rest
      refine ⟨high :: low :: values, by simp [hlength, Nat.mul_add], ?_, rfl⟩
      exact .cons (digitValue?_eq_some_iff.1 hc) (.cons (digitValue?_eq_some_iff.1 hd) hcs)
    · rintro ⟨values, hlength, hcs, rfl⟩
      match values, hlength, hcs with
      | high :: low :: values, hlength, .cons hc (.cons hd hcs) =>
        refine .pair (digitValue?_eq_some_iff.2 hc) (digitValue?_eq_some_iff.2 hd) (ih.2 ?_)
        exact ⟨values, by simpa [Nat.mul_add] using hlength, hcs, rfl⟩

/-! ### Texts with the standard ends -/

theorem reads_standardSuffix :
    Reads (layout.drop 4) (Text.bytes standardSuffix) (base.bytes.drop 4) :=
  read_eq_ok_iff.1 rfl

/-- **With the standard tail, eight digits make a UUID and nothing else does.** -/
theorem ofText?_standard_iff {v : String} : ofText? (v ++ standardSuffix) = .ok u ↔
    ∃ values, values.length = 8 ∧ List.Forall₂ Spells (Text.bytes v) values ∧
      u.bytes = pairsOf values ++ base.bytes.drop 4 := by
  have hlayout : layout = List.replicate 4 .pair ++ layout.drop 4 := rfl
  rw [ofText?_eq_ok_iff_reads, Text.bytes_append, hlayout]
  constructor
  · intro h
    obtain ⟨first, second, bytes, more, htext, hbytes, hfirst, hsecond⟩ := h.split
    have hlength := reads_standardSuffix.length_eq.trans hsecond.length_eq.symm
    obtain ⟨rfl, rfl⟩ := List.append_inj' htext hlength
    obtain ⟨values, hvalues, hdigits, rfl⟩ := reads_pairs_iff.1 hfirst
    obtain rfl := hsecond.unique reads_standardSuffix
    exact ⟨values, hvalues, hdigits, hbytes⟩
  · rintro ⟨values, hvalues, hdigits, hbytes⟩
    rw [hbytes]
    exact (reads_pairs_iff.2 ⟨values, hvalues, hdigits, rfl⟩).append reads_standardSuffix

theorem ofNat_inj_of_lt {m n : Nat} (hm : m < 256) (hn : n < 256) :
    UInt8.ofNat m = UInt8.ofNat n ↔ m = n := by
  rw [← UInt8.toNat_inj, UInt8.toNat_ofNat_of_lt' hm, UInt8.toNat_ofNat_of_lt' hn]

/-- **The UUID of eight digits has an alias exactly if the first four are zero**, and it is the
number of the last four. -/
theorem eq_ofAlias_iff {high low : List Nat} (hhigh : high.length = 4) (hlow : low.length = 4)
    (digits : ∀ v ∈ high ++ low, v < 16)
    (hu : u.bytes = pairsOf (high ++ low) ++ base.bytes.drop 4) :
    u = ofAlias n ↔ high = [0, 0, 0, 0] ∧ Nat.ofDigits 16 low.reverse = n.toNat := by
  match high, low, hhigh, hlow with
  | [a, b, c, d], [e, f, g, h], _, _ =>
    have hn := n.toNat_lt
    have hbytes : u = ofAlias n ↔ u.bytes = (ofAlias n).bytes := ⟨congrArg _, eq_of_bytes⟩
    have hlow8 : UInt8.ofNat n.toNat = UInt8.ofNat (n.toNat % 256) := by
      rw [← UInt8.toNat_inj, UInt8.toNat_ofNat', UInt8.toNat_ofNat']
      omega
    have halias : (ofAlias n).bytes = [UInt8.ofNat 0, UInt8.ofNat 0, UInt8.ofNat (n.toNat / 256),
        UInt8.ofNat (n.toNat % 256)] ++ base.bytes.drop 4 := by
      rw [← hlow8]
      rfl
    simp only [List.cons_append, List.nil_append, List.forall_mem_cons] at digits
    rw [hbytes, hu, halias, List.append_left_inj]
    simp only [List.cons_append, List.nil_append, pairsOf, List.cons.injEq, and_true]
    rw [ofNat_inj_of_lt (by omega) (by omega), ofNat_inj_of_lt (by omega) (by omega),
      ofNat_inj_of_lt (by omega) (by omega), ofNat_inj_of_lt (by omega) (by omega)]
    simp [Nat.ofDigits]
    omega

/-! ### Values of four and of eight digits -/

theorem hexDigits_iff {s : String} : HexDigits k s ↔
    ∃ values, values.length = k ∧ List.Forall₂ Spells (Text.bytes s) values := by
  constructor
  · rintro ⟨rfl, h⟩
    obtain ⟨values, hvalues⟩ := exists_values h
    exact ⟨values, hvalues.length_eq.symm, hvalues⟩
  · rintro ⟨values, rfl, h⟩
    refine ⟨h.length_eq, fun c hc => ?_⟩
    obtain ⟨i, hi, rfl⟩ := List.getElem_of_mem hc
    exact ⟨_, h.get hi (h.length_eq ▸ hi)⟩

theorem spells_zero_iff {c : UInt8} : Spells c 0 ↔ c = 48 := by
  constructor
  · rintro (h | h) <;> exact (Option.some.inj h).symm
  · rintro rfl
    exact .inl rfl

theorem eq_zeros_iff (h : List.Forall₂ Spells cs values) :
    cs = List.replicate k 48 ↔ values = List.replicate k 0 := by
  induction h generalizing k with
  | nil => cases k <;> simp
  | @cons c v cs values hc _ ih =>
    have hzero : c = 48 ↔ v = 0 :=
      ⟨fun heq => rightUnique_spells hc (spells_zero_iff.2 heq), fun heq =>
        spells_zero_iff.1 (heq ▸ hc)⟩
    cases k with
    | zero => simp
    | succ k => rw [List.replicate_succ, List.replicate_succ, List.cons.injEq, List.cons.injEq,
        hzero, ih]

theorem lt_of_spells (h : List.Forall₂ Spells cs values) : ∀ v ∈ values, v < 16 := by
  induction h with
  | nil => exact List.forall_mem_nil _
  | cons hc _ ih => exact List.forall_mem_cons.2 ⟨hc.lt, ih⟩

/-- Four digits spell one number, and it has sixteen bits. -/
theorem exists_numeral (h : List.Forall₂ Spells cs values) (hlength : values.length = 4) :
    ∃ n : UInt16, Nat.ofDigits 16 values.reverse = n.toNat ∧ ∀ m, Numeral cs m ↔ m = n.toNat := by
  have hlt := Nat.ofDigits_lt_base_pow_length (b := 16) (l := values.reverse) (by decide)
    fun v hv => lt_of_spells h v (List.mem_reverse.1 hv)
  rw [List.length_reverse, hlength] at hlt
  have hn : (UInt16.ofNat (Nat.ofDigits 16 values.reverse)).toNat =
      Nat.ofDigits 16 values.reverse := UInt16.toNat_ofNat_of_lt' hlt
  exact ⟨_, hn.symm, fun m => (numeral_iff h).trans (by rw [hn]; exact eq_comm)⟩

theorem length_pairsOf (h : values.length = 2 * k) : (pairsOf values).length = k := by
  induction k generalizing values with
  | zero =>
    obtain rfl := List.length_eq_zero_iff.1 h
    rfl
  | succ k ih =>
    match values, h with
    | high :: low :: values, h =>
      rw [pairsOf, List.length_cons, ih (by simpa [Nat.mul_add] using h)]

theorem exists_ofText?_standard {v : String} (hv : List.Forall₂ Spells (Text.bytes v) values)
    (hlength : values.length = 8) : ∃ u, ofText? (v ++ standardSuffix) = .ok u ∧
      u.bytes = pairsOf values ++ base.bytes.drop 4 := by
  have hsixteen : (pairsOf values ++ base.bytes.drop 4).length = 16 := by
    rw [List.length_append, length_pairsOf (k := 4) hlength]
    rfl
  exact ⟨⟨_, hsixteen⟩, ofText?_standard_iff.2 ⟨values, hlength, hv, rfl⟩, rfl⟩

/-- The digits of the standard base. -/
theorem spells_standardBase : List.Forall₂ Spells (Text.bytes standardBase) [0, 0, 0, 0] := by
  have hzero := spells_zero_iff.2 rfl
  exact .cons hzero (.cons hzero (.cons hzero (.cons hzero .nil)))

/-- **Four digits between the standard ends** make the UUID of the alias that they spell. -/
theorem ofText?_standard_four {v : String} (hv : List.Forall₂ Spells (Text.bytes v) values)
    (hlength : values.length = 4) (hn : Nat.ofDigits 16 values.reverse = n.toNat) :
    ofText? (standardBase ++ v ++ standardSuffix) = .ok (ofAlias n) := by
  have hdigits : List.Forall₂ Spells (Text.bytes (standardBase ++ v)) ([0, 0, 0, 0] ++ values) := by
    rw [Text.bytes_append]
    exact List.rel_append spells_standardBase hv
  obtain ⟨u, hu, hbytes⟩ := exists_ofText?_standard hdigits (by simp [hlength])
  rw [hu, (eq_ofAlias_iff rfl hlength (lt_of_spells hdigits) hbytes).2 ⟨rfl, hn⟩]

end Uuid

namespace Settings

open Uuid

/-- The texts put around short values are the standard ones. -/
def Standard (s : Settings) : Prop := s.uuidBase = standardBase ∧ s.uuidSuffix = standardSuffix

variable {s : Settings} {value : String}

theorem generateUuid_of_eight (standard : s.Standard) (h : (Text.bytes value).length = 8) :
    s.generateUuid value = value ++ standardSuffix := by
  have hsize : value.utf8ByteSize = 8 := h
  rw [generateUuid, if_pos hsize, standard.2]

theorem generateUuid_of_ne_eight (standard : s.Standard) (h : (Text.bytes value).length ≠ 8) :
    s.generateUuid value = standardBase ++ value ++ standardSuffix := by
  have hsize : value.utf8ByteSize ≠ 8 := h
  rw [generateUuid, if_neg hsize, standard.1, standard.2]

/-- **Four digits, with or without zeros in front,** make the UUID of their alias. -/
theorem ofText?_generateUuid_four (standard : s.Standard) (h : HexDigits 4 value) :
    ∃ n : UInt16, (∀ m, Numeral (Text.bytes value) m ↔ m = n.toNat) ∧
      ofText? (s.generateUuid value) = .ok (ofAlias n) ∧ (ofAlias n).alias? = some n ∧
      ofText? (s.generateUuid ("0000" ++ value)) = .ok (ofAlias n) := by
  obtain ⟨values, hlength, hdigits⟩ := hexDigits_iff.1 h
  obtain ⟨n, hn, hnumeral⟩ := exists_numeral hdigits hlength
  have hread := ofText?_standard_four hdigits hlength hn
  have hfour : (Text.bytes value).length ≠ 8 := by rw [h.1]; decide
  have height : (Text.bytes ("0000" ++ value)).length = 8 := by
    rw [Text.bytes_append, List.length_append, h.1]
    rfl
  refine ⟨n, hnumeral, ?_, alias?_eq_some_iff.2 rfl, ?_⟩
  · rw [generateUuid_of_ne_eight standard hfour, hread]
  · rw [generateUuid_of_eight standard height]
    exact hread

/-- **Eight digits** make a UUID that has an alias exactly if the first four of them are zero. -/
theorem ofText?_generateUuid_eight (standard : s.Standard) (h : HexDigits 8 value) :
    ∃ u, ofText? (s.generateUuid value) = .ok u ∧
      (∀ n, u.alias? = some n ↔ (Text.bytes value).take 4 = Text.bytes "0000" ∧
        Numeral ((Text.bytes value).drop 4) n.toNat) ∧
      (u.alias? = none ↔ (Text.bytes value).take 4 ≠ Text.bytes "0000") := by
  obtain ⟨values, hlength, hdigits⟩ := hexDigits_iff.1 h
  obtain ⟨u, hu, hbytes⟩ := exists_ofText?_standard hdigits hlength
  have hhigh := List.forall₂_take 4 hdigits
  have hlow := List.forall₂_drop 4 hdigits
  have hlowLength : (values.drop 4).length = 4 := by rw [List.length_drop, hlength]
  have hzeros : (Text.bytes value).take 4 = Text.bytes "0000" ↔ values.take 4 = [0, 0, 0, 0] :=
    eq_zeros_iff (k := 4) hhigh
  have halias (n : UInt16) : u.alias? = some n ↔
      (Text.bytes value).take 4 = Text.bytes "0000" ∧
        Numeral ((Text.bytes value).drop 4) n.toNat := by
    rw [alias?_eq_some_iff, hzeros, numeral_iff hlow]
    refine eq_ofAlias_iff (by rw [List.length_take, hlength]; rfl) hlowLength ?_ ?_
    · rw [List.take_append_drop]
      exact lt_of_spells hdigits
    · rwa [List.take_append_drop]
  refine ⟨u, by rw [generateUuid_of_eight standard h.1, hu], halias, ?_⟩
  rw [Option.eq_none_iff_forall_ne_some]
  constructor
  · intro hnone htake
    obtain ⟨n, -, hnumeral⟩ := exists_numeral hlow hlowLength
    exact hnone n ((halias n).2 ⟨htake, (hnumeral _).2 rfl⟩)
  · exact fun htake n hn => htake ((halias n).1 hn).1

/-- **Only digits, four or eight of them, make a UUID.** -/
theorem hexDigits_of_ofText? {u : Uuid} (standard : s.Standard)
    (h : ofText? (s.generateUuid value) = .ok u) : HexDigits 4 value ∨ HexDigits 8 value := by
  by_cases height : (Text.bytes value).length = 8
  · rw [generateUuid_of_eight standard height, ofText?_standard_iff] at h
    obtain ⟨values, hlength, hdigits, -⟩ := h
    exact .inr (hexDigits_iff.2 ⟨values, hlength, hdigits⟩)
  · rw [generateUuid_of_ne_eight standard height, ofText?_standard_iff] at h
    obtain ⟨values, hlength, hdigits, -⟩ := h
    rw [Text.bytes_append] at hdigits
    refine .inl (hexDigits_iff.2 ⟨values.drop 4, by rw [List.length_drop, hlength], ?_⟩)
    exact List.forall₂_drop 4 hdigits

end Settings

namespace Application

open Uuid

/-- **What becomes of the values that UUIDs are generated from.** -/
theorem generated_uuids {app : Application} (standard : app.profile.settings.Standard)
    (value : String) :
    ((∃ u, ofText? (app.profile.settings.generateUuid value) = .ok u) ↔
        HexDigits 4 value ∨ HexDigits 8 value) ∧
      (HexDigits 4 value → ∃ n : UInt16,
        (∀ m, Numeral (Text.bytes value) m ↔ m = n.toNat) ∧
          ofText? (app.profile.settings.generateUuid value) = .ok (ofAlias n) ∧
          (ofAlias n).alias? = some n ∧
          ofText? (app.profile.settings.generateUuid ("0000" ++ value)) = .ok (ofAlias n)) ∧
      (HexDigits 8 value → ∃ u,
        ofText? (app.profile.settings.generateUuid value) = .ok u ∧
          (∀ n, u.alias? = some n ↔ (Text.bytes value).take 4 = Text.bytes "0000" ∧
            Numeral ((Text.bytes value).drop 4) n.toNat) ∧
          (u.alias? = none ↔ (Text.bytes value).take 4 ≠ Text.bytes "0000")) ∧
      ∀ (u : Uuid) (n : UInt16), u.alias? = some n ↔ u = ofAlias n := by
  refine ⟨⟨fun ⟨u, hu⟩ => Settings.hexDigits_of_ofText? standard hu, ?_⟩,
    Settings.ofText?_generateUuid_four standard, Settings.ofText?_generateUuid_eight standard,
    fun u n => alias?_eq_some_iff⟩
  rintro (h | h)
  · obtain ⟨n, -, hread, -⟩ := Settings.ofText?_generateUuid_four standard h
    exact ⟨_, hread⟩
  · obtain ⟨u, hread, -⟩ := Settings.ofText?_generateUuid_eight standard h
    exact ⟨u, hread⟩

/-- An application at the root that is set up with the standard texts. -/
def plain : Application := .fresh 0 ⟨{ name := "org.example.app", path := "/" }, .root⟩

/-- The hypotheses are satisfiable: four digits, and eight that do not start with zeros. -/
theorem generated_uuids_heartRate : plain.profile.settings.Standard ∧
    HexDigits 4 "180D" ∧
    ofText? (plain.profile.settings.generateUuid "180D") = .ok (ofAlias 0x180D) ∧
    HexDigits 8 "feed1234" ∧ ∃ u, ofText? (plain.profile.settings.generateUuid "feed1234") =
      .ok u ∧ u.alias? = none := by
  have standard : plain.profile.settings.Standard := ⟨rfl, rfl⟩
  have digits : List.Forall₂ Spells (Text.bytes "180D") [1, 8, 0, 13] :=
    .cons (.inl rfl) (.cons (.inl rfl) (.cons (.inl rfl) (.cons (.inr rfl) .nil)))
  have four : HexDigits 4 "180D" := hexDigits_iff.2 ⟨_, rfl, digits⟩
  have eight : HexDigits 8 "feed1234" := hexDigits_iff.2 ⟨[15, 14, 14, 13, 1, 2, 3, 4], rfl,
    .cons (.inl rfl) (.cons (.inl rfl) (.cons (.inl rfl) (.cons (.inl rfl) (.cons (.inl rfl)
      (.cons (.inl rfl) (.cons (.inl rfl) (.cons (.inl rfl) .nil)))))))⟩
  obtain ⟨n, hnumeral, hfour, -⟩ := (generated_uuids standard "180D").2.1 four
  obtain rfl : 0x180D = n := UInt16.toNat_inj.1 ((hnumeral _).1 ⟨_, digits, rfl⟩)
  obtain ⟨u, height, -, hnone⟩ := (generated_uuids standard "feed1234").2.2.1 eight
  exact ⟨standard, four, hfour, eight, u, height, hnone.2 (by decide)⟩

end Application
end GattServer
