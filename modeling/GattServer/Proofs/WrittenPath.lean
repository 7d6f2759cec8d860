/-
# Reading what was written

A path is read from the bytes of a text, and written as its segments with a slash before each.  The
two meet here: the written segments of a path, unless there are none, read back as that path
(`ObjectPath.ofText?_stem`), and whatever is read is the written form of the path that it gives
(`ObjectPath.text_of_ofText?`).

A child is named by writing a path and reading it again.  Where the label is itself made of segment
characters, the child is the path with one segment more (`ObjectPath.child?_numbered`): no number
makes it malformed, and it lies nowhere else.
-/

import GattServer.Gatt.Basic
import GattServer.Proofs.Ascii

namespace GattServer

/-! ### The bytes of segment characters -/

theorem toNat_lt_of_isWordChar {c : Char} (hc : isWordChar c = true) : c.toNat < 128 := by
  have hupper : c.isUpper = decide (c.val ≥ 'A'.val ∧ c.val ≤ 'Z'.val) := rfl
  have hlower : c.isLower = (decide (c.val ≥ 'a'.val) && decide (c.val ≤ 'z'.val)) := rfl
  have halphanum : c.isAlphanum = (c.isUpper || c.isLower || c.isDigit) := rfl
  simp only [isWordChar, halphanum, hupper, hlower, Char.isDigit, Bool.or_eq_true,
    Bool.and_eq_true, decide_eq_true_eq, UInt32.le_iff_toNat_le, ge_iff_le,
    ← Char.toNat_val] at hc ⊢
  rcases hc with ((⟨_, h⟩ | ⟨_, h⟩) | ⟨_, h⟩) | rfl
  · exact Nat.lt_of_le_of_lt h (by decide)
  · exact Nat.lt_of_le_of_lt h (by decide)
  · exact Nat.lt_of_le_of_lt h (by decide)
  · decide

/-- What holds of the word characters among the first 128 holds of all of them. -/
theorem forall_wordChar {P : Char → Prop}
    (h : ∀ n < 128, isWordChar (Char.ofNat n) = true → P (Char.ofNat n)) {c : Char}
    (hc : isWordChar c = true) : P c := by
  have hP := h c.toNat (toNat_lt_of_isWordChar hc)
  rw [Char.ofNat_toNat] at hP
  exact hP hc

theorem ofUInt8_toUInt8 {c : Char} (hc : isWordChar c = true) : Char.ofUInt8 c.toUInt8 = c :=
  forall_wordChar (P := fun c => Char.ofUInt8 c.toUInt8 = c) (by decide +kernel) hc

theorem toUInt8_ne_slash {c : Char} (hc : isWordChar c = true) : c.toUInt8 ≠ 47 :=
  forall_wordChar (P := fun c => c.toUInt8 ≠ 47) (by decide +kernel) hc

/-- The bytes of a text of word characters are their codes. -/
theorem Text.bytes_of_word {s : String} (h : s.toList.all isWordChar = true) :
    Text.bytes s = s.toList.map Char.toUInt8 :=
  Text.bytes_of_ascii fun c hc => toNat_lt_of_isWordChar (List.all_eq_true.1 h c hc)

namespace Segment

/-- The characters of a segment as a run. -/
def run (s : Segment) : Run := ⟨s.text.toList, s.word⟩

theorem run_ne_nil (s : Segment) : s.run.1 ≠ [] := s.ne_nil

theorem ofRun_run (s : Segment) : ofRun s.run = [s] := by
  rw [ofRun, dif_neg s.run_ne_nil]
  simp only [run, String.ofList_toList]

/-- The segment of a label and a number behind it. -/
def numbered (label : Segment) (n : UInt32) : Segment where
  text := label.text ++ toString n.toNat
  ne_nil := by
    rw [String.toList_append]
    exact List.append_ne_nil_of_left_ne_nil label.ne_nil _
  word := by
    have hd : ∀ c ∈ (toString n.toNat).toList, isWordChar c = true := by
      intro c hc
      rw [Nat.toString_eq_repr, Nat.repr_eq_ofList_toDigits, String.toList_ofList] at hc
      have := Nat.isDigit_of_mem_toDigits (by decide) (by decide) hc
      simp [isWordChar, Char.isAlphanum, this]
    rw [String.toList_append, List.all_append, label.word]
    simpa using hd

end Segment

namespace ObjectPath

/-! ### Reading segments -/

/-- Word characters are read into the run at hand. -/
theorem readSegments_word (cs : List Char) (h : cs.all isWordChar = true) (run : Segment.Run)
    (rest : List UInt8) :
    readSegments run (cs.map Char.toUInt8 ++ rest) =
      readSegments ⟨run.1 ++ cs, by rw [List.all_append, run.2, h]; rfl⟩ rest := by
  induction cs generalizing run with
  | nil =>
    congr 1
    exact Subtype.ext (List.append_nil _).symm
  | cons c cs ih =>
    rw [List.all_cons, Bool.and_eq_true] at h
    have hw : isWordChar (Char.ofUInt8 c.toUInt8) = true := by rw [ofUInt8_toUInt8 h.1]; exact h.1
    rw [List.map_cons, List.cons_append, readSegments, if_neg (toUInt8_ne_slash h.1), dif_pos hw,
      ih h.2]
    congr 1
    exact Subtype.ext (by simp [Segment.Run.push, ofUInt8_toUInt8 h.1])

theorem readSegments_segment (s : Segment) (rest : List UInt8) :
    readSegments .nil (Text.bytes s.text ++ rest) = readSegments s.run rest := by
  rw [Text.bytes_of_word s.word, readSegments_word _ s.word]
  rfl

theorem bytes_stem (segments : List Segment) :
    Text.bytes (stem ⟨segments⟩) = segments.flatMap fun s => 47 :: Text.bytes s.text := by
  induction segments with
  | nil => rfl
  | cons s ss ih =>
    have hs : Text.bytes "/" = [47] := rfl
    rw [stem] at ih
    rw [stem, List.map_cons, String.join_cons, Text.bytes_append, Text.bytes_append, hs, ih,
      List.flatMap_cons]
    rfl

/-- The bytes after the first slash of written segments read back as these segments. -/
theorem readSegments_written (s : Segment) (ss : List Segment) :
    readSegments .nil (Text.bytes s.text ++ ss.flatMap fun s => 47 :: Text.bytes s.text) =
      .ok (s :: ss) := by
  induction ss generalizing s with
  | nil =>
    rw [readSegments_segment]
    show Except.ok (Segment.ofRun s.run) = _
    rw [Segment.ofRun_run]
  | cons t ts ih =>
    have ht : Text.bytes t.text ≠ [] := by
      rw [Text.bytes_of_word t.word]
      simpa using t.ne_nil
    rw [readSegments_segment, List.flatMap_cons, List.cons_append, readSegments, if_pos rfl,
      if_neg s.run_ne_nil, if_neg (fun h => ht (List.append_eq_nil_iff.1 h).1), ih t,
      Segment.ofRun_run]
    rfl

/-- **Written segments read back as their path.** -/
theorem ofText?_stem {p : ObjectPath} (h : p.segments ≠ []) : ofText? p.stem = .ok p := by
  obtain ⟨segments⟩ := p
  obtain _ | ⟨s, ss⟩ := segments
  · exact absurd rfl h
  · rw [ofText?, bytes_stem, List.flatMap_cons, List.cons_append]
    show (readSegments .nil _).map ObjectPath.mk = _
    rw [readSegments_written]
    rfl

/-- **A path reads back from its written form.** -/
theorem ofText?_text (p : ObjectPath) : ofText? p.text = .ok p := by
  by_cases h : p.segments = []
  · obtain ⟨segments⟩ := p
    obtain rfl : segments = [] := h
    rfl
  · rw [text, if_neg h, ofText?_stem h]

theorem text_injective {p q : ObjectPath} (h : p.text = q.text) : p = q := by
  have hread := p.ofText?_text
  rw [h, q.ofText?_text] at hread
  exact (Except.ok.inj hread).symm

/-! ### What was read -/

theorem bytes_ofRun {run : Segment.Run} (h : run.1 ≠ []) :
    ∃ s, Segment.ofRun run = [s] ∧ Text.bytes s.text = run.1.map Char.toUInt8 := by
  refine ⟨_, dif_neg h, ?_⟩
  rw [Text.bytes_of_word (by simpa using run.2), String.toList_ofList]

theorem bytes_text_cons (s : Segment) (ss : List Segment) :
    Text.bytes (text ⟨s :: ss⟩) =
      47 :: (Text.bytes s.text ++ ss.flatMap fun s => 47 :: Text.bytes s.text) := by
  rw [text, if_neg (List.cons_ne_nil s ss), bytes_stem, List.flatMap_cons]
  rfl

/-- Segments are read from the bytes that they are written with, those of the run at hand
included. -/
theorem bytes_of_readSegments {run : Segment.Run} {bs : List UInt8} {ss : List Segment}
    (h : readSegments run bs = .ok ss) :
    Text.bytes (text ⟨ss⟩) = 47 :: (run.1.map Char.toUInt8 ++ bs) := by
  fun_induction readSegments run bs generalizing ss with
  | case1 run =>
    cases h
    by_cases hrun : run.1 = []
    · rw [Segment.ofRun, dif_pos hrun, hrun]
      rfl
    · obtain ⟨s, hs, hbytes⟩ := bytes_ofRun hrun
      rw [hs, bytes_text_cons, hbytes]
      rfl
  | case2 | case3 => cases h
  | case4 run rest hrun hrest ih =>
    cases hread : readSegments .nil rest with
    | error f =>
      rw [hread] at h
      cases h
    | ok more =>
      rw [hread] at h
      cases h
      obtain ⟨s, hs, hbytes⟩ := bytes_ofRun hrun
      have hmore := ih hread
      match more, hmore with
      | [], hmore =>
        -- only the root has no segments, and there are bytes left
        exact absurd (List.cons.inj hmore).2.symm hrest
      | t :: ts, hmore =>
        rw [bytes_text_cons] at hmore
        rw [hs]
        show Text.bytes (text ⟨s :: t :: ts⟩) = _
        rw [bytes_text_cons, hbytes, List.flatMap_cons, List.cons_append, (List.cons.inj hmore).2]
        rfl
  | case5 run b rest hb hw ih =>
    rw [ih h, Segment.Run.push, List.map_append, List.append_assoc]
    simp [Text.toUInt8_ofUInt8]
  | case6 => cases h

/-- **A text that is read is the written form of its path.** -/
theorem text_of_ofText? {s : String} {p : ObjectPath} (h : ofText? s = .ok p) : p.text = s := by
  refine Text.bytes_injective ?_
  unfold ofText? at h
  split at h
  · cases h
  · rename_i b rest hs
    split_ifs at h with hslash
    cases hread : readSegments .nil rest with
    | error f =>
      rw [hread] at h
      cases h
    | ok ss =>
      rw [hread] at h
      cases h
      rw [bytes_of_readSegments hread, hs, hslash]
      rfl

/-! ### Children -/

/-- The path with one segment more. -/
def push (p : ObjectPath) (s : Segment) : ObjectPath := ⟨p.segments ++ [s]⟩

theorem stem_push (p : ObjectPath) (s : Segment) : (p.push s).stem = p.stem ++ "/" ++ s.text := by
  simp [stem, push, String.join_append, String.append_assoc]

/-- **A child lies one segment below its parent**, whatever its number. -/
theorem child?_numbered (p : ObjectPath) (label : Segment) (n : UInt32) :
    p.child? label.text n = .ok (p.push (label.numbered n)) := by
  have hs : p.stem ++ "/" ++ label.text ++ toString n.toNat =
      (p.push (label.numbered n)).stem := by
    simp only [stem_push, Segment.numbered, String.append_assoc]
  rw [child?, hs]
  exact ofText?_stem (by simp [push])

end ObjectPath
end GattServer
