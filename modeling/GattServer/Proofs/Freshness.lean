/-
# When allocated paths are fresh

A piece numbers the pieces it creates from one on, so a path that it allocates is none of those it
has allocated before.  But it can be one that is attached: a copy of the piece allocates the same
paths, and what the copy created can be attached to the piece as well.  When the piece then counts
up to the number of such a part, it allocates the path of that part once more, and what it creates
cannot be attached (`Piece.not_always_fresh`).

So paths are fresh from now on, whatever is created and attached of the paths that the piece has
allocated itself, if and only if this has been so up to now: all its parts have paths that it has
allocated itself, or before the copy was taken (`Built.fresh_iff`).
-/

import GattServer.Proofs.Pieces

namespace GattServer

variable {ps qs : List ObjectPath} {p q p' : Piece} {n : UInt32}

namespace Piece

/-! ### Numbered paths -/

/-- The label of the pieces that a piece creates. -/
def label : Piece → Segment
  | .service _ => Segment.characteristic
  | .characteristic _ | .descriptor _ => Segment.descriptor

/-- The path below a piece that has a number. -/
def numbered (p : Piece) (n : UInt32) : ObjectPath := p.path.push (p.label.numbered n)

theorem numbered_injective {m : UInt32} (h : p.numbered m = p.numbered n) : m = n :=
  Segment.numbered_injective (ObjectPath.push_injective h).2

theorem Creates.label_eq (h : p.Creates q p') : p'.label = p.label := by
  cases h <;> rfl

theorem Attaches.label_eq (h : p.Attaches q p') : p'.label = p.label := by
  cases h <;> rfl

theorem Creates.numbered_eq (h : p.Creates q p') : p'.numbered = p.numbered := by
  funext n
  rw [numbered, numbered, h.label_eq, h.eqs.2.2.1]

theorem Attaches.numbered_eq (h : p.Attaches q p') : p'.numbered = p.numbered := by
  funext n
  rw [numbered, numbered, h.label_eq, h.eqs.2.1]

/-- **What is created gets the next number.** -/
theorem Creates.path_eq (h : p.Creates q p') : q.path = p.numbered (p.created + 1) := by
  cases h with
  | characteristic h =>
    obtain ⟨rfl, -⟩ := Service.createCharacteristic_eq h
    rfl
  | descriptor h =>
    obtain ⟨rfl, -⟩ := Characteristic.createDescriptor_eq h
    rfl

/-- What is created has created nothing itself. -/
theorem Creates.created_eq (h : p.Creates q p') : q.created = 0 := by
  cases h with
  | characteristic h =>
    obtain ⟨rfl, -⟩ := Service.createCharacteristic_eq h
    rfl
  | descriptor => rfl

/-- What is created can be attached to its creator unless there is a part of its path. -/
theorem Creates.attaches (h : p.Creates q p') (new : ∀ r ∈ p.parts, r.path ≠ q.path) :
    ∃ whole, p'.Attaches q whole := by
  cases h with
  | characteristic h =>
    obtain ⟨rfl, rfl⟩ := Service.createCharacteristic_eq h
    exact ⟨_, .characteristic ((Service.receives _ _).accepted rfl fun e he =>
      new _ (List.mem_map_of_mem he))⟩
  | descriptor h =>
    obtain ⟨rfl, rfl⟩ := Characteristic.createDescriptor_eq h
    exact ⟨_, .descriptor ((Characteristic.receives _ _).accepted rfl fun e he =>
      new _ (List.mem_map_of_mem he))⟩

/-- Whatever has parts can create another one. -/
theorem exists_creates (h : q ∈ p.parts) : ∃ r p', p.Creates r p' := by
  cases p with
  | service s =>
    obtain ⟨c, t, hnew⟩ := s.exists_createCharacteristic ⟨.ofAlias 0, .empty, []⟩
    exact ⟨_, _, .characteristic hnew⟩
  | characteristic c =>
    obtain ⟨d, e, hnew⟩ := c.exists_createDescriptor ⟨.ofAlias 0, .empty, []⟩
    exact ⟨_, _, .descriptor hnew⟩
  | descriptor => exact absurd h List.not_mem_nil

/-! ### What a piece has allocated -/

/-- The paths that a piece has allocated are those of the numbers up to its counter. -/
def Allocated (ps : List ObjectPath) (p : Piece) : Prop :=
  ∀ a, a ∈ ps ↔ ∃ n : UInt32, 1 ≤ n.toNat ∧ n.toNat ≤ p.created.toNat ∧ a = p.numbered n

theorem Allocated.of_zero (h : p.created = 0) : Allocated [] p := by
  intro a
  rw [h]
  simp only [List.not_mem_nil, false_iff]
  rintro ⟨n, hpos, hle, -⟩
  exact absurd (hpos.trans hle) (by decide)

theorem Allocated.creates (h : Allocated ps p) (hnew : p.Creates q p') (room : p.HasRoom) :
    Allocated (ps ++ [q.path]) p' := by
  intro a
  have hcount : p'.created.toNat = p.created.toNat + 1 := by
    rw [hnew.eqs.2.2.2, room.toNat_succ]
  rw [List.mem_append, List.mem_singleton, h a, hnew.path_eq, hnew.numbered_eq, hcount]
  constructor
  · rintro (⟨n, hpos, hle, rfl⟩ | rfl)
    · exact ⟨n, hpos, hle.trans (Nat.le_succ _), rfl⟩
    · exact ⟨p.created + 1, by rw [room.toNat_succ]; omega, room.toNat_succ.le, rfl⟩
  · rintro ⟨n, hpos, hle, rfl⟩
    rcases Nat.le_succ_iff.1 hle with hle | heq
    · exact Or.inl ⟨n, hpos, hle, rfl⟩
    · exact Or.inr (congrArg p.numbered (UInt32.toNat_inj.1 (heq.trans room.toNat_succ.symm)))

theorem Allocated.attaches (h : Allocated ps p) (hadd : p.Attaches q p') : Allocated ps p' := by
  intro a
  rw [hadd.numbered_eq, hadd.eqs.2.2]
  exact h a

/-- **The next path is none of those.** -/
theorem Allocated.next_notMem (h : Allocated ps p) (hnew : p.Creates q p') (room : p.HasRoom) :
    q.path ∉ ps := by
  rw [h, hnew.path_eq]
  rintro ⟨n, -, hle, heq⟩
  rw [← numbered_injective heq, room.toNat_succ] at hle
  omega

/-! ### Freshness -/

/-- What a piece creates has a path that none of its parts has, and can be attached to it. -/
def Fresh (p : Piece) : Prop :=
  ∀ q p', p.HasRoom → p.Creates q p' →
    (∀ r ∈ p.parts, r.path ≠ q.path) ∧ ∃ whole, p'.Attaches q whole

/-- All parts of a piece have paths of a list. -/
def Own (ps : List ObjectPath) (p : Piece) : Prop := ∀ q ∈ p.parts, q.path ∈ ps

/-- **A piece that keeps to itself**: it creates others, and has others attached to it if they have
paths that it has allocated itself. -/
inductive Grows : List ObjectPath → Piece → List ObjectPath → Piece → Prop where
  | refl (ps : List ObjectPath) (p : Piece) : Grows ps p ps p
  | create {ps qs : List ObjectPath} {p p' q p'' : Piece} (past : Grows ps p qs p')
    (h : p'.Creates q p'') (room : p'.HasRoom) : Grows ps p (qs ++ [q.path]) p''
  | attach {ps qs : List ObjectPath} {p p' q p'' : Piece} (past : Grows ps p qs p')
    (h : p'.Attaches q p'') (own : q.path ∈ qs) : Grows ps p qs p''

theorem Own.creates (own : p.Own ps) (h : p.Creates q p') : p'.Own (ps ++ [q.path]) := by
  intro r hr
  rw [h.eqs.2.1] at hr
  exact List.mem_append_left _ (own r hr)

theorem own_of_attaches (h : p.Attaches q p') : p'.Own ps ↔ p.Own ps ∧ q.path ∈ ps := by
  rw [Own, h.eqs.1, List.forall_mem_append, List.forall_mem_singleton]
  rfl

theorem Own.fresh (own : p.Own ps) (allocated : Allocated ps p) : p.Fresh := by
  intro q p' room hnew
  have hother : ∀ r ∈ p.parts, r.path ≠ q.path := fun r hr heq =>
    allocated.next_notMem hnew room (heq ▸ own r hr)
  exact ⟨hother, hnew.attaches hother⟩

/-- **A piece that keeps to itself goes on as it is.** -/
theorem Grows.keeps (h : Grows ps p qs p') (own : p.Own ps) (allocated : Allocated ps p) :
    p'.Own qs ∧ Allocated qs p' := by
  induction h with
  | refl => exact ⟨own, allocated⟩
  | create past h room ih =>
    obtain ⟨hown, hallocated⟩ := ih own allocated
    exact ⟨hown.creates h, hallocated.creates h room⟩
  | attach past h hq ih =>
    obtain ⟨hown, hallocated⟩ := ih own allocated
    exact ⟨(own_of_attaches h).2 ⟨hown, hq⟩, hallocated.attaches h⟩

/-- A piece with parts can count up to any number its counter can show. -/
theorem exists_grows (ps : List ObjectPath) (h : q ∈ p.parts) {k : Nat}
    (hk : p.created.toNat + k < UInt32.size) :
    ∃ qs p', Grows ps p qs p' ∧ p'.parts = p.parts ∧ p'.numbered = p.numbered ∧
      p'.created.toNat = p.created.toNat + k := by
  induction k with
  | zero => exact ⟨ps, p, .refl ps p, rfl, rfl, rfl⟩
  | succ k ih =>
    obtain ⟨qs, p', past, hparts, hnumbered, hcount⟩ := ih (by omega)
    obtain ⟨r, p'', hnew⟩ := exists_creates (hparts ▸ h)
    have room : p'.HasRoom := by
      rw [HasRoom, hcount]
      omega
    refine ⟨_, p'', .create past hnew room, hnew.eqs.2.1.trans hparts,
      hnew.numbered_eq.trans hnumbered, ?_⟩
    rw [hnew.eqs.2.2.2, room.toNat_succ, hcount]
    rfl

end Piece

namespace Built

/-- **A built piece has allocated the paths of its first numbers.** -/
theorem allocated (h : Built ps p) : p.Allocated ps := by
  induction h with
  | @service app app' properties advertised s h =>
    obtain ⟨rfl, -⟩ := Application.createService_eq h
    exact .of_zero rfl
  | child built h room ih => exact .of_zero h.created_eq
  | creator built h room ih => exact ih.creates h room
  | whole built offered h ih => exact ih.attaches h

/-- The parts of a built piece have numbers from one on. -/
theorem exists_numbered (h : Built ps p) (hq : q ∈ p.parts) :
    ∃ n : UInt32, 1 ≤ n.toNat ∧ q.path = p.numbered n := by
  cases p with
  | service s =>
    obtain ⟨c, hc, rfl⟩ := List.mem_map.1 hq
    obtain ⟨rs, built⟩ := h.characteristics hc
    obtain ⟨root, rooted⟩ := h.rooted
    obtain ⟨qs, u, -, room, properties, first, t, hnew, hpath, hservice⟩ := built.hasCreator
    obtain ⟨rfl, -⟩ := Service.createCharacteristic_eq hnew
    refine ⟨u.created + 1, room.toNat_succ ▸ Nat.le_add_left _ _, hpath.symm.trans ?_⟩
    have hs : u.path = s.path := hservice.trans (rooted.characteristics c hc).parent_eq
    rw [hs]
    rfl
  | characteristic c =>
    obtain ⟨d, hd, rfl⟩ := List.mem_map.1 hq
    obtain ⟨rs, built⟩ := h.descriptors hd
    obtain ⟨qs, u, -, room, properties, e, hnew⟩ := built.hasCreator
    have hparent := (h.belongs.descriptors d hd).parent_eq
    obtain ⟨rfl, -⟩ := Characteristic.createDescriptor_eq hnew
    refine ⟨u.created + 1, room.toNat_succ ▸ Nat.le_add_left _ _, ?_⟩
    have hc : u.path = c.path := hparent
    show u.path.push _ = _
    rw [hc]
    rfl
  | descriptor => exact absurd hq List.not_mem_nil

/-- **The paths that a piece allocates are fresh from now on if and only if all its parts have paths
that it has allocated itself**, or that were allocated before the copy was taken.  This is so for
services and for characteristics, as long as the piece keeps to itself. -/
theorem fresh_iff (h : Built ps p) :
    (∀ qs p', Piece.Grows ps p qs p' → p'.Fresh) ↔ p.Own ps := by
  constructor
  · intro hfresh q hq
    obtain ⟨n, hpos, hn⟩ := h.exists_numbered hq
    rw [h.allocated]
    by_contra hout
    -- the number of the part is still to come, and one before it the piece is not fresh
    have hlater : p.created.toNat < n.toNat := by
      by_contra hle
      exact hout ⟨n, hpos, not_lt.1 hle, hn⟩
    have hsize := n.toNat_lt_size
    obtain ⟨qs, p', past, hparts, hnumbered, hcount⟩ :=
      Piece.exists_grows ps hq (k := n.toNat - p.created.toNat - 1) (by omega)
    obtain ⟨r, p'', hnew⟩ := Piece.exists_creates (hparts ▸ hq)
    have room : p'.HasRoom := by
      rw [Piece.HasRoom, hcount]
      omega
    have hnext : p'.created + 1 = n := by
      refine UInt32.toNat_inj.1 ?_
      rw [room.toNat_succ, hcount]
      omega
    refine (hfresh qs p' past r p'' room hnew).1 q (hparts ▸ hq) ?_
    rw [hnew.path_eq, hnext, hn, hnumbered]
  · intro own qs p' past
    obtain ⟨hown, hallocated⟩ := past.keeps own h.allocated
    exact hown.fresh hallocated

end Built

/-! ### Copies that exchange what they create -/

namespace Sample

/-- The first characteristic that the heart rate service creates, or a copy of it. -/
def firstRate : Characteristic :=
  ⟨heartRate.path.push (Segment.characteristic.numbered 1), heartRate.path,
    ⟨.ofAlias 0x2A37, .empty, []⟩, 0, []⟩

/-- The heart rate service with what a copy created. -/
def crossed : Service := { heartRate with characteristics := [firstRate] }

/-- The characteristic of the battery with what a copy created. -/
def crossedLevel : Characteristic := { bareLevel with descriptors := [label] }

theorem creates_firstRate : (Piece.service heartRate).Creates (.characteristic firstRate)
    (.service { heartRate with created := 1 }) :=
  @Piece.Creates.characteristic _ _ firstRate.properties _ rfl

theorem built_crossed : Built [] (.service crossed) := by
  have bare : Built [] (.service heartRate) :=
    @Built.service { Application.fresh 0 profile with created := 1 } _ _ _ _ rfl
  exact .whole bare (.child bare creates_firstRate (by decide)) (.characteristic rfl)

end Sample

/-- The hypothesis is satisfiable, on both sides: the battery has what it created itself, and goes
on allocating fresh paths; the heart rate service has what a copy created, and does not. -/
theorem Built.fresh_iff_battery :
    (∀ qs p', Piece.Grows [Sample.levelPath] (.service Sample.battery) qs p' → p'.Fresh) ∧
      ¬ ∀ qs p', Piece.Grows [] (.service Sample.crossed) qs p' → p'.Fresh := by
  constructor
  · refine (Built.fresh_iff Sample.built_battery).2 fun q hq => ?_
    rw [List.mem_singleton.1 hq]
    exact List.mem_cons_self
  · intro h
    have hown := (Built.fresh_iff Sample.built_crossed).1 h
    exact absurd (hown (.characteristic Sample.firstRate) List.mem_cons_self) List.not_mem_nil

/-- The states that a piece and its copies get into when they create others and have attached to
them what any of them created. -/
inductive Piece.Family (p : Piece) : Piece → Prop where
  | self : Family p p
  | creator {u q u' : Piece} (member : Family p u) (h : u.Creates q u') (room : u.HasRoom) :
    Family p u'
  | whole {u v q u' v' : Piece} (member : Family p u) (other : Family p v) (h : v.Creates q v')
    (room : v.HasRoom) (attached : u.Attaches q u') : Family p u'

/-- **Paths need not be fresh.**  A copy of a service creates its first characteristic, which is
attached to the service; then the service creates its own first characteristic under the same path,
and cannot have it attached.  So it is with characteristics and descriptors. -/
theorem Piece.not_always_fresh :
    (¬ ∀ p, Piece.Family (.service Sample.heartRate) p → p.Fresh) ∧
      ¬ ∀ p, Piece.Family (.characteristic Sample.bareLevel) p → p.Fresh := by
  constructor
  · intro h
    have hfresh := h (.service Sample.crossed)
      (.whole .self .self Sample.creates_firstRate (by decide) (.characteristic rfl))
    have again : (Piece.service Sample.crossed).Creates (.characteristic Sample.firstRate)
        (.service { Sample.crossed with created := 1 }) :=
      @Piece.Creates.characteristic _ _ Sample.firstRate.properties _ rfl
    exact (hfresh _ _ (by decide) again).1 (.characteristic Sample.firstRate) List.mem_cons_self rfl
  · intro h
    have hfresh := h (.characteristic Sample.crossedLevel)
      (.whole .self .self Sample.creates_label (by decide) (.descriptor rfl))
    have again : (Piece.characteristic Sample.crossedLevel).Creates (.descriptor Sample.label)
        (.characteristic Sample.level) :=
      @Piece.Creates.descriptor _ _ Sample.label.properties _ rfl
    exact (hfresh _ _ (by decide) again).1 (.descriptor Sample.label) List.mem_cons_self rfl

end GattServer
