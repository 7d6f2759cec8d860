/-
# UUIDs by their template

The written form of a UUID has twenty tokens, and each has its place in the text: sixteen pairs of
hexadecimal digits, and dashes at the offsets 8, 13, 18 and 23 (`Uuid.template`).  A text meets a
place if the token lies inside the text and is there.

Reading goes along the text with an offset and the bytes read so far, and looks at each offset what
is due there.  That comes to the same as taking one token after the other off the front of what is
left of the text (`Uuid.readFrom_eq`), which is how most is proved here.  Token by token, reading
knows nothing of offsets.  All the same it judges the text by the template: it reports the first
place that is not met, as the end of the text if the token reaches past it, and it looks for more
text only if all places are met (`Uuid.read_of_met`, `Uuid.read_of_unmet`).  So the result for a
text tells what becomes of the text with more behind it, unless the text ended too early
(`Uuid.read_append`).
-/

import GattServer.Uuid
import Mathlib.Data.List.Basic

namespace GattServer
namespace Uuid

/-! ### Reading token by token -/

/-- A piece of the written form: the two digits of a byte, or a dash. -/
inductive Token where
  | pair
  | dash
  deriving DecidableEq, Repr

/-- The number of characters of a token. -/
def Token.width : Token → Nat
  | .pair => 2
  | .dash => 1

/-- The number of characters of tokens that follow one another. -/
def width : List Token → Nat
  | [] => 0
  | t :: ts => t.width + width ts

/-- The tokens of the written form, in order. -/
def layout : List Token :=
  [.pair, .pair, .pair, .pair, .dash, .pair, .pair, .dash, .pair, .pair, .dash, .pair, .pair, .dash,
    .pair, .pair, .pair, .pair, .pair, .pair]

/-- Reads the tokens of a layout one after the other; nothing may follow the last one.  A pair that
does not fit into the text is the end of the text, whatever its first character is. -/
def read : List Token → List UInt8 → Except UuidFault (List UInt8)
  | [], [] => .ok []
  | [], _ :: _ => .error .trailing
  | .dash :: ts, c :: cs => if c = 45 then read ts cs else .error .dash
  | .dash :: _, [] => .error .endOfText
  | .pair :: ts, c :: d :: cs =>
    match digitValue? c, digitValue? d with
    | some high, some low => (read ts cs).map (UInt8.ofNat (16 * high + low) :: ·)
    | _, _ => .error .digit
  | .pair :: _, _ => .error .endOfText

theorem width_concat (ts : List Token) (t : Token) : width (ts ++ [t]) = width ts + t.width := by
  induction ts with
  | nil => exact Nat.add_comm ..
  | cons u ts ih => rw [List.cons_append, width, width, ih, Nat.add_assoc]

/-- **The layout tells what is due.**  Until it ends there are bytes to read, and dashes are due at
the offsets of dashes. -/
theorem due_of_layout {front back : List Token} {t : Token} (h : layout = front ++ t :: back) :
    front.count .pair < 16 ∧ (width front ∈ dashes ↔ t = .dash) := by
  have table : ∀ k < layout.length, (layout.take k).count .pair < 16 ∧
      (width (layout.take k) ∈ dashes ↔ layout[k]? = some .dash) := by decide
  have hlength : front.length < layout.length := by
    rw [h, List.length_append, List.length_cons]
    omega
  have hfront := table front.length hlength
  rw [h, List.take_left, List.getElem?_append_right (Nat.le_refl _), Nat.sub_self] at hfront
  simpa using hfront

/-- A pair is not read where less than two bytes are left. -/
theorem read_pair_of_short {cs : List UInt8} {ts : List Token} {o : Nat} (h : cs.length ≤ o + 1) :
    read (.pair :: ts) (cs.drop o) = .error .endOfText := by
  have hlength : (cs.drop o).length ≤ 1 := by
    rw [List.length_drop]
    omega
  rcases hleft : cs.drop o with _ | ⟨c, _ | ⟨d, rest⟩⟩
  · rfl
  · rfl
  · exact absurd hlength (by simp [hleft])

/-- **Reading by offsets is reading token by token** what is left of the layout, from what is left
of the text. -/
theorem readFrom_eq {cs bytes : List UInt8} {front ts : List Token} (h : layout = front ++ ts)
    (hbytes : bytes.length = front.count .pair) (hin : width front ≤ cs.length) :
    readFrom cs (width front) bytes =
      (read ts (cs.drop (width front))).map (bytes ++ ·) := by
  induction ts generalizing front bytes with
  | nil =>
    rw [List.append_nil] at h
    subst h
    have hfull : ¬ bytes.length < 16 := by
      rw [hbytes]
      decide
    rw [readFrom, if_neg hfull]
    split_ifs with hend
    · rw [hend, List.drop_length, read]
      exact congrArg Except.ok (List.append_nil bytes).symm
    · rw [List.drop_eq_getElem_cons (by omega), read]
      rfl
  | cons t ts ih =>
    obtain ⟨hcount, hdue⟩ := due_of_layout h
    have hnext : layout = (front ++ [t]) ++ ts := by rw [List.append_assoc]; exact h
    rw [readFrom, if_pos (hbytes ▸ hcount)]
    cases t with
    | dash =>
      rw [if_pos (hdue.2 rfl)]
      split_ifs with hlt hc
      · have hwidth : width (front ++ [.dash]) = width front + 1 := width_concat ..
        have hrest := ih hnext (by simpa using hbytes) (hwidth ▸ hlt)
        rw [hwidth] at hrest
        rw [List.drop_eq_getElem_cons hlt, read, if_pos hc, hrest]
      · rw [List.drop_eq_getElem_cons hlt, read, if_neg hc]
        rfl
      · rw [List.drop_eq_nil_of_le (Nat.not_lt.1 hlt), read]
        rfl
    | pair =>
      rw [if_neg fun hdash => nomatch hdue.1 hdash]
      split_ifs with hlt
      · rw [List.drop_eq_getElem_cons (Nat.lt_of_succ_lt hlt), List.drop_eq_getElem_cons hlt, read]
        cases hhigh : digitValue? cs[width front] with
        | none => rfl
        | some high =>
          cases hlow : digitValue? cs[width front + 1] with
          | none => rfl
          | some low =>
            have hwidth : width (front ++ [.pair]) = width front + 2 := width_concat ..
            have hlonger : (bytes ++ [UInt8.ofNat (16 * high + low)]).length =
                (front ++ [Token.pair]).count .pair := by simpa using hbytes
            have hrest := ih hnext hlonger (hwidth ▸ hlt)
            rw [hwidth] at hrest
            dsimp only
            rw [hrest]
            cases read ts (cs.drop (width front + 2)) with
            | error f => rfl
            | ok bs => exact congrArg Except.ok (List.append_assoc _ [_] bs)
      · rw [read_pair_of_short (Nat.not_lt.1 hlt)]
        rfl

/-- A text that is read gives a byte for each pair of the layout. -/
theorem length_of_read {ts : List Token} {cs bs : List UInt8} (h : read ts cs = .ok bs) :
    bs.length = ts.count .pair := by
  induction ts generalizing cs bs with
  | nil =>
    cases cs with
    | nil => cases h; rfl
    | cons c cs => cases h
  | cons t ts ih =>
    cases t with
    | dash =>
      cases cs with
      | nil => cases h
      | cons c cs =>
        simp only [read] at h
        split at h
        · simpa using ih h
        · cases h
    | pair =>
      match cs, h with
      | [], h => cases h
      | [_], h => cases h
      | c :: d :: cs, h =>
        simp only [read] at h
        split at h
        · cases hr : read ts cs with
          | error e => rw [hr] at h; cases h
          | ok rest => rw [hr] at h; cases h; simpa using ih hr
        · cases h

/-! ### The template -/

/-- A byte is the character of the digit of a value, in lower or in upper case. -/
def Spells (c : UInt8) (n : Nat) : Prop :=
  (Text.bytes "0123456789abcdef")[n]? = some c ∨ (Text.bytes "0123456789ABCDEF")[n]? = some c

/-- The two digits at an offset of a text stand for a byte. -/
def PairAt (cs : List UInt8) (offset : Nat) (b : UInt8) : Prop :=
  ∃ c d high low, cs[offset]? = some c ∧ cs[offset + 1]? = some d ∧ Spells c high ∧ Spells d low ∧
    b.toNat = 16 * high + low

/-- A token at its place in a text. -/
structure Place where
  /-- The offset of its first byte. -/
  offset : Nat
  /-- The token. -/
  token : Token

namespace Place

/-- The offset behind a place. -/
def stop (p : Place) : Nat := p.offset + p.token.width

/-- What a text has at a place is the token. -/
def Matches (p : Place) (cs : List UInt8) : Prop :=
  match p.token with
  | .dash => cs[p.offset]? = some 45
  | .pair => ∃ b, PairAt cs p.offset b

/-- A place lies inside a text, and the token is there. -/
def Met (p : Place) (cs : List UInt8) : Prop := p.stop ≤ cs.length ∧ p.Matches cs

/-- How a place is missed: the token reaches past the end of the text, or something else is in its
place.  What there is of a token that reaches past the end does not matter. -/
def fault (p : Place) (cs : List UInt8) : UuidFault :=
  if cs.length < p.stop then .endOfText
  else
    match p.token with
    | .dash => .dash
    | .pair => .digit

variable {p : Place} {cs : List UInt8} {o : Nat}

theorem fault_of_lt (h : cs.length < p.stop) : p.fault cs = .endOfText := if_pos h

theorem fault_dash (h : o + 1 ≤ cs.length) : fault ⟨o, .dash⟩ cs = .dash := if_neg (Nat.not_lt.2 h)

theorem fault_pair (h : o + 2 ≤ cs.length) : fault ⟨o, .pair⟩ cs = .digit :=
  if_neg (Nat.not_lt.2 h)

end Place

/-- The places of the written form. -/
def template : List Place :=
  [⟨0, .pair⟩, ⟨2, .pair⟩, ⟨4, .pair⟩, ⟨6, .pair⟩, ⟨8, .dash⟩, ⟨9, .pair⟩, ⟨11, .pair⟩, ⟨13, .dash⟩,
    ⟨14, .pair⟩, ⟨16, .pair⟩, ⟨18, .dash⟩, ⟨19, .pair⟩, ⟨21, .pair⟩, ⟨23, .dash⟩, ⟨24, .pair⟩,
    ⟨26, .pair⟩, ⟨28, .pair⟩, ⟨30, .pair⟩, ⟨32, .pair⟩, ⟨34, .pair⟩]

/-- The offsets of the pairs among places. -/
def pairOffsets (places : List Place) : List Nat :=
  (places.filter (·.token = .pair)).map Place.offset

/-- The places of tokens that follow one another from an offset on. -/
def placesFrom (offset : Nat) : List Token → List Place
  | [] => []
  | t :: ts => ⟨offset, t⟩ :: placesFrom (offset + t.width) ts

theorem placesFrom_layout : placesFrom 0 layout = template := rfl

/-! ### One token -/

/-- What holds of all numbers below 256, as bytes, holds of all bytes. -/
theorem forall_byte {P : UInt8 → Prop} (h : ∀ n < 256, P (UInt8.ofNat n)) (b : UInt8) : P b := by
  have hb := h b.toNat b.toNat_lt
  rwa [UInt8.ofNat_toNat] at hb

theorem digitValue?_eq_some_iff {c : UInt8} {n : Nat} : digitValue? c = some n ↔ Spells c n := by
  have table : ∀ c : UInt8, ∀ n < 16, (digitValue? c = some n ↔ Spells c n) :=
    forall_byte (by unfold Spells; decide +kernel)
  refine ⟨fun hc => (table c n (digitValue?_lt hc)).1 hc, fun hc => (table c n ?_).2 hc⟩
  rcases hc with hc | hc
  · exact (List.getElem?_eq_some_iff.1 hc).1
  · exact (List.getElem?_eq_some_iff.1 hc).1

/-- Whether there is a pair at an offset can be told from the two bytes there. -/
theorem exists_pairAt_iff {cs : List UInt8} {o : Nat} :
    (∃ b, PairAt cs o b) ↔
      (cs[o]?.bind digitValue?).isSome ∧ (cs[o + 1]?.bind digitValue?).isSome := by
  simp only [Option.isSome_iff_exists, Option.bind_eq_some_iff]
  constructor
  · rintro ⟨b, c, d, high, low, hc, hd, hhigh, hlow, -⟩
    exact ⟨⟨high, c, hc, digitValue?_eq_some_iff.2 hhigh⟩,
      ⟨low, d, hd, digitValue?_eq_some_iff.2 hlow⟩⟩
  · rintro ⟨⟨high, c, hc, hhigh⟩, ⟨low, d, hd, hlow⟩⟩
    have := digitValue?_lt hhigh
    have := digitValue?_lt hlow
    exact ⟨UInt8.ofNat (16 * high + low), c, d, high, low, hc, hd,
      digitValue?_eq_some_iff.1 hhigh, digitValue?_eq_some_iff.1 hlow,
      UInt8.toNat_ofNat_of_lt' (show _ < 256 by omega)⟩

instance (p : Place) (cs : List UInt8) : Decidable (p.Matches cs) :=
  match p with
  | ⟨o, .dash⟩ => inferInstanceAs (Decidable (cs[o]? = some 45))
  | ⟨_, .pair⟩ => decidable_of_iff _ exists_pairAt_iff.symm

instance (p : Place) (cs : List UInt8) : Decidable (p.Met cs) :=
  inferInstanceAs (Decidable (_ ∧ _))

theorem drop_of_getElem? {cs : List UInt8} {o : Nat} {c : UInt8} (h : cs[o]? = some c) :
    cs.drop o = c :: cs.drop (o + 1) := by
  obtain ⟨hlt, rfl⟩ := List.getElem?_eq_some_iff.1 h
  exact List.drop_eq_getElem_cons hlt

variable {cs ds bs es : List UInt8} {o : Nat} {ts us : List Token}

theorem read_dash_drop (h : cs[o]? = some 45) :
    read (.dash :: ts) (cs.drop o) = read ts (cs.drop (o + Token.dash.width)) := by
  rw [drop_of_getElem? h, read, if_pos rfl, Token.width]

theorem read_pair_drop {b : UInt8} (h : PairAt cs o b) :
    read (.pair :: ts) (cs.drop o) =
      (read ts (cs.drop (o + Token.pair.width))).map (b :: ·) := by
  obtain ⟨c, d, high, low, hc, hd, hhigh, hlow, hb⟩ := h
  have hbyte : UInt8.ofNat (16 * high + low) = b := by rw [← hb, UInt8.ofNat_toNat]
  rw [drop_of_getElem? hc, drop_of_getElem? hd, read, digitValue?_eq_some_iff.2 hhigh,
    digitValue?_eq_some_iff.2 hlow]
  simp only [hbyte, Token.width]

theorem read_dash_missed (h : ¬ (⟨o, .dash⟩ : Place).Met cs) :
    read (.dash :: ts) (cs.drop o) = .error (Place.fault ⟨o, .dash⟩ cs) := by
  by_cases ho : o + 1 ≤ cs.length
  · have hdash : cs[o] ≠ 45 := fun heq =>
      h ⟨ho, by rw [Place.Matches, List.getElem?_eq_getElem ho, heq]⟩
    rw [Place.fault_dash ho, List.drop_eq_getElem_cons ho, read, if_neg hdash]
  · rw [Place.fault_of_lt (p := ⟨o, .dash⟩) (Nat.not_le.1 ho), List.drop_eq_nil_of_le (by omega),
      read]

theorem read_pair_missed (h : ¬ (⟨o, .pair⟩ : Place).Met cs) :
    read (.pair :: ts) (cs.drop o) = .error (Place.fault ⟨o, .pair⟩ cs) := by
  by_cases ho : o + 2 ≤ cs.length
  · have hlt : o < cs.length := by omega
    rw [Place.fault_pair ho, List.drop_eq_getElem_cons hlt, List.drop_eq_getElem_cons ho, read]
    split
    · rename_i high low hhigh hlow
      refine absurd ⟨ho, exists_pairAt_iff.2 ?_⟩ h
      rw [List.getElem?_eq_getElem hlt, List.getElem?_eq_getElem ho]
      simp [hhigh, hlow]
    · rfl
  · rw [Place.fault_of_lt (p := ⟨o, .pair⟩) (Nat.not_le.1 ho),
      read_pair_of_short (Nat.le_of_lt_succ (Nat.not_le.1 ho))]

/-! ### The whole text -/

/-- **Where all places are met**, reading gives the bytes of the pairs, unless there is more. -/
theorem read_of_met (met : ∀ p ∈ placesFrom o ts, p.Met cs) (ho : o ≤ cs.length) :
    ∃ bs, List.Forall₂ (PairAt cs) (pairOffsets (placesFrom o ts)) bs ∧
      read ts (cs.drop o) =
        if cs.length = o + width ts then .ok bs else .error .trailing := by
  induction ts generalizing o with
  | nil =>
    refine ⟨[], .nil, ?_⟩
    rw [width, Nat.add_zero]
    by_cases heq : cs.length = o
    · rw [List.drop_eq_nil_of_le (Nat.le_of_eq heq), read, if_pos heq]
    · rw [List.drop_eq_getElem_cons (by omega), read, if_neg heq]
  | cons t ts ih =>
    obtain ⟨⟨hstop, hmatch⟩, hrest⟩ := List.forall_mem_cons.1 met
    obtain ⟨bs, hbs, hread⟩ := ih hrest hstop
    rw [width, ← Nat.add_assoc]
    cases t with
    | dash =>
      refine ⟨bs, hbs, ?_⟩
      rw [read_dash_drop hmatch, hread]
    | pair =>
      obtain ⟨b, hb⟩ := hmatch
      refine ⟨b :: bs, .cons hb hbs, ?_⟩
      rw [read_pair_drop hb, hread]
      split_ifs <;> rfl

/-- **Reading reports the first place that is not met.** -/
theorem read_of_unmet {front back : List Place} {p : Place}
    (hplaces : placesFrom o ts = front ++ p :: back) (met : ∀ q ∈ front, q.Met cs)
    (unmet : ¬ p.Met cs) : read ts (cs.drop o) = .error (p.fault cs) := by
  induction ts generalizing o front with
  | nil => simp [placesFrom] at hplaces
  | cons t ts ih =>
    cases front with
    | nil =>
      obtain ⟨rfl, -⟩ := List.cons.inj hplaces
      cases t with
      | dash => exact read_dash_missed unmet
      | pair => exact read_pair_missed unmet
    | cons q front =>
      obtain ⟨rfl, hrest⟩ := List.cons.inj hplaces
      obtain ⟨⟨-, hmatch⟩, hfront⟩ := List.forall_mem_cons.1 met
      have hread := ih hrest hfront
      cases t with
      | dash => rw [read_dash_drop hmatch, hread]
      | pair =>
        obtain ⟨b, hb⟩ := hmatch
        rw [read_pair_drop hb, hread]
        rfl

/-- **What more text changes.**  A text that was read is followed by something then, and a fault
stays, unless it was that the text ended too early. -/
theorem read_append (h : read ts cs ≠ .error .endOfText) :
    read ts (cs ++ ds) =
      match read ts cs with
      | .ok bs => if ds = [] then .ok bs else .error .trailing
      | .error f => .error f := by
  fun_induction read ts cs with
  | case1 => cases ds <;> rfl
  | case2 => rfl
  | case3 ts cs ih => rw [List.cons_append, read, if_pos rfl]; exact ih h
  | case4 ts c cs hc => rw [List.cons_append, read, if_neg hc]
  | case5 => exact absurd rfl h
  | case6 ts c d cs high low hhigh hlow ih =>
    simp only [List.cons_append, read, hhigh, hlow]
    cases hread : read ts cs with
    | ok bs =>
      rw [hread] at ih
      rw [ih (fun heq => by cases heq)]
      by_cases hds : ds = [] <;> simp [hds, Except.map]
    | error f =>
      rw [hread] at ih h
      rw [ih h]
      rfl
  | case7 ts c d cs hdigits =>
    -- the digits decide, whatever follows them
    simp only [List.cons_append, read]
  | case8 => exact absurd rfl h

/-! ### Texts that are read -/

/-- **The texts that a layout reads**, with the bytes that it reads from them. -/
inductive Reads : List Token → List UInt8 → List UInt8 → Prop where
  | nil : Reads [] [] []
  | dash {ts : List Token} {cs bs : List UInt8} (rest : Reads ts cs bs) :
    Reads (.dash :: ts) (45 :: cs) bs
  | pair {ts : List Token} {c d : UInt8} {cs bs : List UInt8} {high low : Nat}
    (hc : digitValue? c = some high) (hd : digitValue? d = some low) (rest : Reads ts cs bs) :
    Reads (.pair :: ts) (c :: d :: cs) (UInt8.ofNat (16 * high + low) :: bs)

theorem read_eq_ok_iff : read ts cs = .ok bs ↔ Reads ts cs bs := by
  constructor
  · intro h
    fun_induction read ts cs generalizing bs with
    | case1 =>
      cases h
      exact .nil
    | case3 ts cs ih => exact .dash (ih h)
    | case6 ts c d cs high low hlow hhigh ih =>
      cases hread : read ts cs with
      | ok rest =>
        rw [hread] at h
        cases h
        exact .pair hhigh hlow (ih hread)
      | error f =>
        rw [hread] at h
        cases h
    | case2 | case4 | case5 | case7 | case8 => cases h
  · intro h
    induction h with
    | nil => rfl
    | dash rest ih => rw [read, if_pos rfl, ih]
    | pair hc hd rest ih =>
      rw [read, hc, hd, ih]
      rfl

/-- The length of a text that is read is that of its tokens. -/
theorem Reads.length_eq (h : Reads ts cs bs) : cs.length = width ts := by
  induction h with
  | nil => rfl
  | dash rest ih =>
    rw [List.length_cons, ih, width, Token.width, Nat.add_comm]
  | pair hc hd rest ih =>
    rw [List.length_cons, List.length_cons, ih, width, Token.width, Nat.add_comm 2]

/-- Layouts in a row read texts in a row. -/
theorem Reads.append (first : Reads ts cs bs) (second : Reads us ds es) :
    Reads (ts ++ us) (cs ++ ds) (bs ++ es) := by
  induction first with
  | nil => exact second
  | dash rest ih => exact .dash ih
  | pair hc hd rest ih => exact .pair hc hd ih

/-- What layouts in a row read comes apart between them. -/
theorem Reads.split (h : Reads (ts ++ us) cs bs) : ∃ first second bytes more,
    cs = first ++ second ∧ bs = bytes ++ more ∧ Reads ts first bytes ∧ Reads us second more := by
  induction ts generalizing cs bs with
  | nil => exact ⟨[], cs, [], bs, rfl, rfl, .nil, h⟩
  | cons t ts ih =>
    cases h with
    | dash rest =>
      obtain ⟨first, second, bytes, more, rfl, rfl, hfirst, hsecond⟩ := ih rest
      exact ⟨45 :: first, second, bytes, more, rfl, rfl, .dash hfirst, hsecond⟩
    | @pair _ c d _ _ high low hc hd rest =>
      obtain ⟨first, second, bytes, more, rfl, rfl, hfirst, hsecond⟩ := ih rest
      exact ⟨c :: d :: first, second, _ :: bytes, more, rfl, rfl, .pair hc hd hfirst, hsecond⟩

theorem Reads.unique (h : Reads ts cs bs) (h' : Reads ts cs es) : bs = es := by
  rw [← read_eq_ok_iff] at h h'
  exact Except.ok.inj (h.symm.trans h')

/-! ### Texts -/

theorem eq_of_bytes {u v : Uuid} (h : u.bytes = v.bytes) : u = v := by
  cases u
  cases h
  rfl

theorem readFrom_zero (cs : List UInt8) : readFrom cs 0 [] = read layout cs := by
  have hread := @readFrom_eq cs [] [] layout rfl rfl (Nat.zero_le _)
  rw [width, List.drop_zero] at hread
  rw [hread]
  cases read layout cs <;> rfl

theorem ofText?_eq_ok_iff {s : String} {u : Uuid} :
    ofText? s = .ok u ↔ read layout (Text.bytes s) = .ok u.bytes := by
  rw [← readFrom_zero]
  unfold ofText?
  split <;> rename_i h
  · simp only [h, Except.ok.injEq]
    exact ⟨congrArg bytes, fun hbytes => eq_of_bytes hbytes⟩
  · simp [h]

theorem ofText?_eq_error_iff {s : String} {f : UuidFault} :
    ofText? s = .error f ↔ read layout (Text.bytes s) = .error f := by
  rw [← readFrom_zero]
  unfold ofText?
  split <;> rename_i h <;> simp [h]

theorem ofText?_eq_ok_iff_reads {s : String} {u : Uuid} :
    ofText? s = .ok u ↔ Reads layout (Text.bytes s) u.bytes :=
  ofText?_eq_ok_iff.trans read_eq_ok_iff

/-- **The result for a text as the template has it.**  A text that meets every place gives the bytes
of its pairs, and must not go on behind the last one; any other text has the fault of the first
place that it does not meet. -/
structure Judged (cs : List UInt8) (r : Except UuidFault Uuid) : Prop where
  complete : (∀ p ∈ template, p.Met cs) → cs.length = 36 →
    ∃ u, r = .ok u ∧ List.Forall₂ (PairAt cs) (pairOffsets template) u.bytes
  longer : (∀ p ∈ template, p.Met cs) → 36 < cs.length → r = .error .trailing
  missed : ∀ front p back, template = front ++ p :: back → (∀ q ∈ front, q.Met cs) →
    ¬ p.Met cs → r = .error (p.fault cs)

theorem judged_ofText? (s : String) : Judged (Text.bytes s) (ofText? s) := by
  have hmet : (∀ p ∈ template, p.Met (Text.bytes s)) → ∃ bs,
      List.Forall₂ (PairAt (Text.bytes s)) (pairOffsets template) bs ∧
        read layout (Text.bytes s) =
          if (Text.bytes s).length = 36 then .ok bs else .error .trailing := by
    intro met
    rw [← placesFrom_layout] at met
    exact read_of_met met (Nat.zero_le _)
  refine ⟨fun met hlength => ?_, fun met hlength => ?_, fun front p back hsplit met unmet => ?_⟩
  · obtain ⟨bs, hbs, hread⟩ := hmet met
    rw [if_pos hlength] at hread
    exact ⟨⟨bs, length_of_read hread⟩, ofText?_eq_ok_iff.2 hread, hbs⟩
  · obtain ⟨bs, -, hread⟩ := hmet met
    rw [if_neg (Nat.ne_of_gt hlength)] at hread
    exact ofText?_eq_error_iff.2 hread
  · rw [← placesFrom_layout] at hsplit
    exact ofText?_eq_error_iff.2 (read_of_unmet hsplit met unmet)

/-- **Reading a UUID goes by the template.**  A proper beginning of a text that is read ends too
early, a text that goes on behind one has trailing data, and a digit or a dash that is missed is
missed whatever comes behind the text. -/
theorem reads_by_template (s : String) :
    Judged (Text.bytes s) (ofText? s) ∧
      (∀ t u, t ≠ "" → ofText? (s ++ t) = .ok u → ofText? s = .error .endOfText) ∧
      (∀ t u, t ≠ "" → ofText? s = .ok u → ofText? (s ++ t) = .error .trailing) ∧
      ∀ t f, f = .digit ∨ f = .dash → ofText? s = .error f → ofText? (s ++ t) = .error f := by
  have hbytes {t : String} (ht : t ≠ "") : Text.bytes t ≠ [] := fun h =>
    ht (Text.bytes_injective h)
  refine ⟨judged_ofText? s, fun t u ht h => ?_, fun t u ht h => ?_, fun t f hf h => ?_⟩
  · rw [ofText?_eq_ok_iff, Text.bytes_append] at h
    rw [ofText?_eq_error_iff]
    by_contra hend
    rw [read_append hend] at h
    cases hread : read layout (Text.bytes s) with
    | ok bs => simp [hread, hbytes ht] at h
    | error f => simp [hread] at h
  · rw [ofText?_eq_ok_iff] at h
    rw [ofText?_eq_error_iff, Text.bytes_append, read_append (by simp [h]), h]
    exact if_neg (hbytes ht)
  · rw [ofText?_eq_error_iff] at h ⊢
    rw [Text.bytes_append, read_append (by rcases hf with rfl | rfl <;> simp [h]), h]

/-- The hypotheses are satisfiable.  Four texts are judged by the template: one that is complete,
one that goes on, one with another character in the place of a dash, and one that ends inside the
last pair, whose first character is no digit either.  The other three results are inferred from
those of a longer or of a shorter text. -/
theorem reads_by_template_heartRate :
    (∃ u, ofText? "0000180D-0000-1000-8000-00805F9B34FB" = .ok u ∧
        List.Forall₂ (PairAt (Text.bytes "0000180D-0000-1000-8000-00805F9B34FB"))
          (pairOffsets template) u.bytes) ∧
      ofText? "0000180d-0000-1000-8000-00805f9b34fb0" = .error .trailing ∧
      ofText? "0000180d_0000" = .error .dash ∧
      ofText? "0000180D-0000-1000-8000-00805F9B34x" = .error .endOfText ∧
      ofText? "0000180D-0000-1000-8000-00805F9B34F" = .error .endOfText ∧
      ofText? ("0000180D-0000-1000-8000-00805F9B34FB" ++ "B") = .error .trailing ∧
      ofText? ("0000180d_0000" ++ "-1000") = .error .dash := by
  have complete := (reads_by_template "0000180D-0000-1000-8000-00805F9B34FB").1.complete
    (by decide +kernel) (by decide +kernel)
  have longer := (reads_by_template "0000180d-0000-1000-8000-00805f9b34fb0").1.longer
    (by decide +kernel) (by decide +kernel)
  have dash := (reads_by_template "0000180d_0000").1.missed (template.take 4) ⟨8, .dash⟩
    (template.drop 5) rfl (by decide +kernel) (by decide +kernel)
  have short := (reads_by_template "0000180D-0000-1000-8000-00805F9B34x").1.missed
    (template.take 19) ⟨34, .pair⟩ [] rfl (by decide +kernel) (by decide +kernel)
  obtain ⟨u, hu, hbytes⟩ := complete
  exact ⟨⟨u, hu, hbytes⟩, longer, dash, short,
    (reads_by_template "0000180D-0000-1000-8000-00805F9B34F").2.1 "B" u (by decide) hu,
    (reads_by_template "0000180D-0000-1000-8000-00805F9B34FB").2.2.1 "B" u (by decide) hu,
    (reads_by_template "0000180d_0000").2.2.2 "-1000" .dash (.inr rfl) dash⟩

end Uuid
end GattServer
