/-
# UUIDs read and written

Reading and writing have the dashes in different places: one counts the characters before a dash,
the other one the bytes.  Both lay out the same tokens (`Uuid.writeFrom_eq_write`), and for any list
of tokens writing and reading undo each other, up to the case of letters: what is written reads back
(`Uuid.read_write`), and what was read is written as it was, in lower case
(`Uuid.Reads.write_eq`).

So a UUID reads back from its text, and two texts that are read stand for one UUID exactly if they
differ in the case of letters only (`Uuid.text_round_trip`).
-/

import GattServer.Proofs.Ascii
import GattServer.Proofs.Template

namespace GattServer
namespace Uuid

/-! ### Digits -/

/-- What holds of the digits of every value below sixteen holds of the digits of a byte. -/
theorem forall_byteChars {P : Char → Prop} (h : ∀ n < 16, P (digit n)) (b : UInt8) :
    ∀ c ∈ byteChars b, P c := by
  have := b.toNat_lt
  rw [byteChars, List.forall_mem_cons, List.forall_mem_singleton]
  exact ⟨h _ (by omega), h _ (Nat.mod_lt _ (by decide))⟩

theorem ascii_digit : ∀ n < 16, (digit n).toNat < 128 := by decide

theorem digitValue?_digit : ∀ n < 16, digitValue? (digit n).toUInt8 = some n := by decide

/-- A byte that is read as a digit is the code of that digit, up to the case of letters. -/
theorem digit_of_digitValue? {c : UInt8} {n : Nat} (h : digitValue? c = some n) :
    c.toNat < 128 ∧ digit n = (Char.ofUInt8 c).toLower := by
  have table : ∀ c : UInt8, ∀ n < 16, digitValue? c = some n →
      c.toNat < 128 ∧ digit n = (Char.ofUInt8 c).toLower :=
    forall_byte (by decide +kernel)
  exact table c n (digitValue?_lt h) h

/-- A byte that is read is written with the digits it was read from, in lower case. -/
theorem byteChars_ofDigits {c d : UInt8} {high low : Nat} (hc : digitValue? c = some high)
    (hd : digitValue? d = some low) : byteChars (UInt8.ofNat (16 * high + low)) =
      [(Char.ofUInt8 c).toLower, (Char.ofUInt8 d).toLower] := by
  have := digitValue?_lt hc
  have := digitValue?_lt hd
  have hbyte : (UInt8.ofNat (16 * high + low)).toNat = 16 * high + low :=
    UInt8.toNat_ofNat_of_lt' (show _ < 256 by omega)
  have hhigh : (16 * high + low) / 16 = high := by omega
  have hlow : (16 * high + low) % 16 = low := by omega
  rw [byteChars, hbyte, hhigh, hlow, (digit_of_digitValue? hc).2, (digit_of_digitValue? hd).2]

/-! ### Tokens written -/

/-- Writes bytes into the pairs of a list of tokens. -/
def write : List Token → List UInt8 → List Char
  | .dash :: ts, bs => '-' :: write ts bs
  | .pair :: ts, b :: bs => byteChars b ++ write ts bs
  | _, _ => []

/-- The tokens of a number of bytes from the `i`-th on, with a dash before each byte that has
one. -/
def layoutFrom (i : Nat) : Nat → List Token
  | 0 => []
  | n + 1 => (if i ∈ dashedBytes then [.dash] else []) ++ .pair :: layoutFrom (i + 1) n

/-- **Counting bytes gives the tokens of the written form.** -/
theorem layoutFrom_zero : layoutFrom 0 16 = layout := rfl

variable {ts : List Token} {bs cs : List UInt8}

theorem writeFrom_eq_write (i : Nat) :
    writeFrom i bs = write (layoutFrom i bs.length) bs := by
  induction bs generalizing i with
  | nil => rfl
  | cons b bs ih =>
    rw [writeFrom, List.length_cons, layoutFrom, ih]
    split_ifs <;> rfl

theorem text_eq (u : Uuid) : u.text = String.ofList (write layout u.bytes) := by
  rw [text, writeFrom_eq_write, u.length_bytes, layoutFrom_zero]

theorem ascii_write : ∀ c ∈ write ts bs, c.toNat < 128 := by
  fun_induction write ts bs with
  | case1 ts bs ih => exact List.forall_mem_cons.2 ⟨by decide, ih⟩
  | case2 ts b bs ih =>
    exact List.forall_mem_append.2 ⟨forall_byteChars ascii_digit b, ih⟩
  | case3 => exact List.forall_mem_nil _

/-- **What is written reads back.** -/
theorem read_write (h : bs.length = ts.count .pair) :
    read ts ((write ts bs).map Char.toUInt8) = .ok bs := by
  fun_induction write ts bs with
  | case1 ts bs ih =>
    have hdash : '-'.toUInt8 = 45 := rfl
    rw [List.map_cons, hdash, read, if_pos rfl]
    exact ih (by simpa using h)
  | case2 ts b bs ih =>
    have := b.toNat_lt
    have hbyte : 16 * (b.toNat / 16) + b.toNat % 16 = b.toNat := by omega
    rw [List.map_append, byteChars, List.map_cons, List.map_singleton, List.cons_append,
      List.singleton_append, read, digitValue?_digit _ (by omega),
      digitValue?_digit _ (Nat.mod_lt _ (by decide)), ih (by simpa using h)]
    simp only [hbyte, UInt8.ofNat_toNat]
    rfl
  | case3 ts bs hdash hpair =>
    cases ts with
    | nil =>
      obtain rfl : bs = [] := List.length_eq_zero_iff.1 h
      rfl
    | cons t ts =>
      cases t with
      | dash => exact absurd rfl (hdash ts)
      | pair =>
        cases bs with
        | nil => simp at h
        | cons b bs => exact absurd rfl (hpair ts b bs rfl)

/-- **What was read is written as it was**, in lower case. -/
theorem Reads.write_eq (h : Reads ts cs bs) :
    write ts bs = cs.map fun c => (Char.ofUInt8 c).toLower := by
  induction h with
  | nil => rfl
  | dash rest ih =>
    have hdash : '-' = (Char.ofUInt8 45).toLower := rfl
    rw [write, ih, List.map_cons, ← hdash]
  | pair hc hd rest ih =>
    rw [write, byteChars_ofDigits hc hd, ih, List.map_cons, List.map_cons]
    rfl

/-- What was read is ASCII. -/
theorem Reads.ascii (h : Reads ts cs bs) : ∀ c ∈ cs, c.toNat < 128 := by
  induction h with
  | nil => exact List.forall_mem_nil _
  | dash rest ih => exact List.forall_mem_cons.2 ⟨by decide, ih⟩
  | pair hc hd rest ih =>
    exact List.forall_mem_cons.2 ⟨(digit_of_digitValue? hc).1,
      List.forall_mem_cons.2 ⟨(digit_of_digitValue? hd).1, ih⟩⟩

/-! ### Texts -/

/-- **A UUID reads back from its text.** -/
theorem ofText?_text (u : Uuid) : ofText? u.text = .ok u := by
  rw [ofText?_eq_ok_iff, text_eq, Text.bytes_of_ascii, String.toList_ofList]
  · exact read_write u.length_bytes
  · rw [String.toList_ofList]
    exact ascii_write

/-- **Different UUIDs have different texts.** -/
theorem text_injective : Function.Injective text := fun u v h => by
  have hu := ofText?_text u
  rw [h, ofText?_text v] at hu
  exact (Except.ok.inj hu).symm

/-- **A text that is read is the text of its UUID**, up to the case of letters. -/
theorem text_of_ofText? {s : String} {u : Uuid} (h : ofText? s = .ok u) : u.text = s.toLower := by
  have reads := ofText?_eq_ok_iff_reads.1 h
  have hlower : s.toLower.toList = s.toList.map Char.toLower := String.toList_map
  rw [← String.toList_inj, hlower, text_eq, reads.write_eq, String.toList_ofList,
    Text.toList_of_ascii reads.ascii, List.map_map]
  rfl

/-- **The texts of UUIDs.**  Each UUID reads back from its text, and each text that is read is in
lower case the text of its UUID; so UUIDs have different texts, and texts that are read stand for
one UUID exactly if they agree up to the case of letters. -/
theorem text_round_trip :
    (∀ u : Uuid, ofText? u.text = .ok u) ∧
      (∀ s u, ofText? s = .ok u → u.text = s.toLower) ∧
      Function.Injective text ∧
      ∀ s t u v, ofText? s = .ok u → ofText? t = .ok v → (u = v ↔ s.toLower = t.toLower) := by
  refine ⟨ofText?_text, fun s u h => text_of_ofText? h, text_injective, fun s t u v hs ht => ?_⟩
  rw [← text_of_ofText? hs, ← text_of_ofText? ht]
  exact text_injective.eq_iff.symm

/-- The hypotheses are satisfiable: the UUID of an alias is read from its text in either case. -/
theorem text_round_trip_heartRate :
    (ofAlias 0x180D).text = "0000180D-0000-1000-8000-00805F9B34FB".toLower ∧
      "0000180D-0000-1000-8000-00805F9B34FB".toLower =
        "0000180d-0000-1000-8000-00805f9b34fb".toLower := by
  have upper : ofText? "0000180D-0000-1000-8000-00805F9B34FB" = .ok (ofAlias 0x180D) :=
    ofText?_eq_ok_iff.2 rfl
  have lower : ofText? "0000180d-0000-1000-8000-00805f9b34fb" = .ok (ofAlias 0x180D) :=
    ofText?_eq_ok_iff.2 rfl
  exact ⟨text_round_trip.2.1 _ _ upper, (text_round_trip.2.2.2 _ _ _ _ upper lower).1 rfl⟩

end Uuid
end GattServer
