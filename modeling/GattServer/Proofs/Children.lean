/-
# The names in a description

The description of a tree lists the names of its objects in ascending order of bytes, each once
(`Introspection.pairwise_children`).  Such a list is told by its members, so a description does not
depend on the order in which the paths come, nor on how often (`Introspection.ofTree_congr`).

A name is what a path has behind the root and a slash.  That is a matter of texts, and a text can
begin like another one in the middle of a segment; but the slash comes along, so what has the root
and a slash in front lies below the root (`ObjectPath.isBelow_of_stem`).  Put behind the
root and a slash again, the name of such a path is the path, and no other name is.  Any other path
is shown whole, without its first slash (`Introspection.childName_of_not_isBelow`).
-/

import GattServer.Proofs.OwnTree
import Mathlib.Data.List.Sort

namespace GattServer

/-! ### Paths below the root, as texts -/

theorem Segment.eq_of_toList {s t : Segment} (h : s.text.toList = t.text.toList) : s = t := by
  cases s
  cases t
  obtain rfl := String.toList_inj.1 h
  rfl

namespace ObjectPath

theorem slash_notMem (s : Segment) : '/' ∉ s.text.toList := fun h =>
  absurd (List.all_eq_true.1 s.word _ h) (by decide)

/-- Two words are equal if what comes behind them starts with a slash, and one of the texts
begins with the other one. -/
theorem word_eq_of_prefix {v w xs ys : List Char} (hv : '/' ∉ v) (hw : '/' ∉ w)
    (hys : ys.takeWhile (· ≠ '/') = []) (h : v ++ '/' :: xs <+: w ++ ys) :
    v = w ∧ '/' :: xs <+: ys := by
  have hne {u : List Char} (hu : '/' ∉ u) : ∀ c ∈ u, decide (c ≠ '/') = true := fun c hc =>
    decide_eq_true fun heq => hu (heq ▸ hc)
  obtain ⟨rest, hrest⟩ := h
  have htake := congrArg (List.takeWhile (· ≠ '/')) hrest
  rw [List.append_assoc, List.takeWhile_append_of_pos (hne hv),
    List.takeWhile_append_of_pos (hne hw), hys] at htake
  obtain rfl : v = w := by simpa using htake
  exact ⟨rfl, rest, List.append_cancel_left ((List.append_assoc ..).symm.trans hrest)⟩

theorem toList_stem_cons (s : Segment) (ss : List Segment) :
    (stem ⟨s :: ss⟩).toList = '/' :: (s.text.toList ++ (stem ⟨ss⟩).toList) := by
  rw [stem_cons, String.toList_append, String.toList_append]
  rfl

theorem takeWhile_stem (ss : List Segment) :
    (stem ⟨ss⟩).toList.takeWhile (· ≠ '/') = [] := by
  cases ss with
  | nil => rfl
  | cons s ss => simp [toList_stem_cons]

theorem exists_slash_cons (ss : List Segment) :
    ∃ cs, (stem ⟨ss⟩).toList ++ ['/'] = '/' :: cs := by
  cases ss with
  | nil => exact ⟨[], rfl⟩
  | cons s ss => exact ⟨_, congrArg (· ++ ['/']) (toList_stem_cons s ss)⟩

/-- **A path with another one and a slash in front** lies below it. -/
theorem isBelow_of_stem {ps qs : List Segment}
    (h : (stem ⟨ps⟩).toList ++ ['/'] <+: (stem ⟨qs⟩).toList) :
    ∃ s ss, qs = ps ++ s :: ss := by
  induction ps generalizing qs with
  | nil =>
    cases qs with
    | nil => simp [stem] at h
    | cons s ss => exact ⟨s, ss, rfl⟩
  | cons p ps ih =>
    cases qs with
    | nil => simp [stem] at h
    | cons q qs =>
      obtain ⟨cs, hcs⟩ := exists_slash_cons ps
      rw [toList_stem_cons, toList_stem_cons, List.cons_append, List.append_assoc, hcs,
        List.cons_prefix_cons] at h
      obtain ⟨hword, hrest⟩ := word_eq_of_prefix (slash_notMem p) (slash_notMem q)
        (takeWhile_stem qs) h.2
      rw [← hcs] at hrest
      obtain ⟨s, ss, rfl⟩ := ih hrest
      obtain rfl := Segment.eq_of_toList hword
      exact ⟨s, ss, rfl⟩

/-- **What starts like the root does, slash included,** lies below the root, or both are `/`. -/
theorem isBelow_of_prefix {root q : ObjectPath} (h : root.stem.toList ++ ['/'] <+: q.text.toList) :
    q.IsBelow root ∨ root.segments = [] ∧ q.segments = [] := by
  by_cases hq : q.segments = []
  · rw [text, if_pos hq] at h
    refine Or.inr ⟨?_, hq⟩
    obtain ⟨_ | ⟨s, ss⟩⟩ := root
    · rfl
    · rw [toList_stem_cons] at h
      simpa using h.length_le
  · rw [text, if_neg hq] at h
    obtain ⟨s, ss, hsegments⟩ := isBelow_of_stem h
    refine Or.inl ⟨⟨s :: ss, hsegments.symm⟩, ?_⟩
    rintro rfl
    simpa using congrArg List.length hsegments

/-- The text of a path is a slash and what follows it, which does not start with another one. -/
theorem toList_text (q : ObjectPath) :
    q.text.toList = '/' :: q.text.toList.dropWhile (· = '/') := by
  obtain ⟨_ | ⟨s, ss⟩⟩ := q
  · rfl
  · obtain ⟨c, cs, hs⟩ := List.exists_cons_of_ne_nil s.ne_nil
    have hc : c ≠ '/' := fun heq => slash_notMem s (by rw [hs, heq]; exact List.mem_cons_self)
    have htext : (text ⟨s :: ss⟩).toList = '/' :: c :: (cs ++ (stem ⟨ss⟩).toList) := by
      rw [text, if_neg (List.cons_ne_nil s ss), toList_stem_cons, hs, List.cons_append]
    rw [htext]
    simp [hc]

end ObjectPath

namespace Introspection

variable {root name : String} {names paths others : List String}

/-! ### Order -/

/-- A name comes before another one in the order of bytes. -/
def Before (a b : String) : Prop := Text.bytes a < Text.bytes b

theorem before_trans {a b c : String} (hab : Before a b) (hbc : Before b c) : Before a c :=
  List.lt_trans hab hbc

theorem before_of_not {a b : String} (hne : a ≠ b) (h : ¬ Before a b) : Before b a := by
  have hthree := Std.Trichotomous.rel_or_eq_or_rel_swap
    (r := ((· < ·) : List UInt8 → List UInt8 → Prop)) (a := Text.bytes a) (b := Text.bytes b)
  rcases hthree with hlt | heq | hlt
  · exact absurd hlt h
  · exact absurd (Text.bytes_injective heq) hne
  · exact hlt

instance : Std.Irrefl Before := ⟨fun a => List.lt_irrefl (Text.bytes a)⟩

instance : Std.Antisymm Before :=
  ⟨fun a _ hab hba => absurd (before_trans hab hba) (List.lt_irrefl (Text.bytes a))⟩

theorem pairwise_insertName (h : names.Pairwise Before) :
    (insertName name names).Pairwise Before := by
  induction names with
  | nil => exact List.pairwise_singleton ..
  | cons first rest ih =>
    obtain ⟨hfirst, hrest⟩ := List.pairwise_cons.1 h
    rw [insertName]
    split_ifs with hsame hlt
    · exact h
    · refine List.pairwise_cons.2 ⟨List.forall_mem_cons.2 ⟨hlt, fun other hother => ?_⟩, h⟩
      exact before_trans hlt (hfirst other hother)
    · refine List.pairwise_cons.2 ⟨fun other hother => ?_, ih hrest⟩
      rcases mem_insertName.1 hother with rfl | hother
      · exact before_of_not hsame hlt
      · exact hfirst other hother

/-- **The names are strictly ascending.** -/
theorem pairwise_children : (ofTree root paths).children.Pairwise Before := by
  rw [ofTree]
  induction paths with
  | nil => exact .nil
  | cons path paths ih => exact pairwise_insertName ih

/-- **A description depends on the paths as a set.** -/
theorem ofTree_congr (h : ∀ path, path ∈ others ↔ path ∈ paths) :
    ofTree root others = ofTree root paths := by
  have hmem (name : String) : name ∈ (ofTree root others).children ↔
      name ∈ (ofTree root paths).children := by
    rw [mem_children_ofTree, mem_children_ofTree]
    simp only [h]
  have hchildren := List.Pairwise.eq_of_mem_iff pairwise_children pairwise_children hmem
  exact congrArg Introspection.mk hchildren

/-! ### Names and paths -/

/-- A path other than those below the root is shown whole, without the slash it starts with. -/
theorem childName_of_not_isBelow {r q : ObjectPath} (h : ¬ q.IsBelow r) :
    childName r.text q.text = String.ofList (q.text.toList.dropWhile (· = '/')) := by
  unfold childName
  split
  · rename_i rest hbehind
    simp only [behind?, r.front_eq] at hbehind
    split_ifs at hbehind with hfront
    rcases ObjectPath.isBelow_of_prefix hfront with hbelow | ⟨hr, hq⟩
    · exact absurd hbelow h
    · -- the root itself, which has nothing behind it
      obtain ⟨_⟩ := r
      obtain ⟨_⟩ := q
      obtain rfl := hr
      obtain rfl := hq
      cases hbehind
      rfl
  · rfl

theorem slash_childName {r q : ObjectPath} (h : ¬ q.IsBelow r) :
    "/" ++ childName r.text q.text = q.text := by
  rw [childName_of_not_isBelow h, ← String.toList_inj, String.toList_append]
  simp only [String.toList_ofList]
  exact q.toList_text.symm

/-- A name behind a root and a slash, where the root `/` counts as empty. -/
def joined (root name : String) : String := (if root = "/" then "" else root) ++ "/" ++ name

theorem joined_text (r : ObjectPath) (name : String) :
    joined r.text name = r.stem ++ "/" ++ name := by
  have hfront : (if r.text = "/" then "" else r.text) = r.stem := by
    rw [← String.toList_inj, ← r.front_eq]
    split_ifs <;> rfl
  rw [joined, hfront]

/-- **Of a path below the root, the name is the one that is joined to the path.** -/
theorem joined_eq_iff {r q : ObjectPath} (h : q.IsBelow r) :
    joined r.text name = q.text ↔ name = childName r.text q.text := by
  rw [joined_text, ← stem_childName h, String.append_right_inj]
  rw [stem_childName h]

/-- Different paths below the root have different names. -/
theorem text_eq_of_childName {r p q : ObjectPath} (hp : p.IsBelow r) (hq : q.IsBelow r)
    (h : childName r.text p.text = childName r.text q.text) : p.text = q.text := by
  rw [← (joined_eq_iff hp).2 rfl, h, (joined_eq_iff hq).2 rfl]

/-- **Paths with different names are counted by their names.** -/
theorem length_children
    (h : ∀ a ∈ paths, ∀ b ∈ paths, childName root a = childName root b → a = b) :
    (ofTree root paths).children.length = paths.dedup.length := by
  have hdedup : ofTree root paths.dedup = ofTree root paths :=
    ofTree_congr fun path => List.mem_dedup
  have hnodup : (paths.dedup.map (childName root)).Nodup :=
    (List.nodup_dedup paths).map_on fun a ha b hb =>
      h a (List.mem_dedup.1 ha) b (List.mem_dedup.1 hb)
  rw [← hdedup, (perm_children_ofTree hnodup).length_eq, List.length_map]

/-- **The names in the description of a tree** are strictly ascending, they are those of the paths,
and the paths matter as a set only.  Where the root is a path: the name of a path below it is the
only one that is joined to that path, so as many names as different paths are listed; and any other
path is named by its whole text without the slash in front. -/
theorem children_name_paths (root : String) (paths : List String) :
    (ofTree root paths).children.Pairwise Before ∧
      (∀ name, name ∈ (ofTree root paths).children ↔
        ∃ path ∈ paths, name = childName root path) ∧
      (∀ others, (∀ path, path ∈ others ↔ path ∈ paths) →
        ofTree root others = ofTree root paths) ∧
      ∀ r, ObjectPath.ofText? root = .ok r →
        (∀ path q, ObjectPath.ofText? path = .ok q → q.IsBelow r →
          ∀ name, joined root name = path ↔ name = childName root path) ∧
        ((∀ path ∈ paths, ∃ q, ObjectPath.ofText? path = .ok q ∧ q.IsBelow r) →
          (∀ a ∈ paths, ∀ b ∈ paths, childName root a = childName root b → a = b) ∧
            (ofTree root paths).children.length = paths.dedup.length) ∧
        ∀ path q, ObjectPath.ofText? path = .ok q → ¬ q.IsBelow r →
          childName root path = String.ofList (path.toList.dropWhile (· = '/')) ∧
            "/" ++ childName root path = path := by
  refine ⟨pairwise_children, fun name => mem_children_ofTree, fun others h => ofTree_congr h,
    fun r hr => ?_⟩
  obtain rfl := ObjectPath.text_of_ofText? hr
  refine ⟨fun path q hq hbelow name => ?_, fun below => ?_, fun path q hq hbelow => ?_⟩
  · obtain rfl := ObjectPath.text_of_ofText? hq
    exact joined_eq_iff hbelow
  · have injective : ∀ a ∈ paths, ∀ b ∈ paths,
        childName r.text a = childName r.text b → a = b := by
      intro a ha b hb h
      obtain ⟨p, hp, hpr⟩ := below a ha
      obtain ⟨q, hq, hqr⟩ := below b hb
      obtain rfl := ObjectPath.text_of_ofText? hp
      obtain rfl := ObjectPath.text_of_ofText? hq
      exact text_eq_of_childName hpr hqr h
    exact ⟨injective, length_children injective⟩
  · obtain rfl := ObjectPath.text_of_ofText? hq
    exact ⟨childName_of_not_isBelow hbelow, slash_childName hbelow⟩

/-- The hypotheses are satisfiable: three paths below `/app`, two of them the same, and a path
whose text only starts like that of the root. -/
theorem children_name_paths_application :
    joined "/app" (childName "/app" "/app/service1") = "/app/service1" ∧
      (ofTree "/app" ["/app/service2", "/app/service1", "/app/service2"]).children.length = 2 ∧
      ofTree "/app" ["/app/service1", "/app/service2"] =
        ofTree "/app" ["/app/service2", "/app/service1", "/app/service2"] ∧
      "/" ++ childName "/app" "/application/x" = "/application/x" := by
  let app : ObjectPath := ⟨[⟨"app", by decide, by decide⟩]⟩
  let first : ObjectPath := app.push ⟨"service1", by decide, by decide⟩
  let second : ObjectPath := app.push ⟨"service2", by decide, by decide⟩
  let other : ObjectPath := ⟨[⟨"application", by decide, by decide⟩, ⟨"x", by decide, by decide⟩]⟩
  have happ := app.ofText?_text
  have hfirst := first.ofText?_text
  have hsecond := second.ofText?_text
  have hother := other.ofText?_text
  have names := children_name_paths "/app" ["/app/service2", "/app/service1", "/app/service2"]
  obtain ⟨below, count, outside⟩ := names.2.2.2 app happ
  refine ⟨(below _ first hfirst (by decide) _).2 rfl, (count ?_).2, names.2.2.1 _ (by simp),
    (outside _ other hother (by decide)).2⟩
  simp only [List.forall_mem_cons]
  exact ⟨⟨second, hsecond, by decide⟩, ⟨first, hfirst, by decide⟩, ⟨second, hsecond, by decide⟩,
    List.forall_mem_nil _⟩

end Introspection
end GattServer
