/-
# The document of a description

The document has a line for each child, after the lines about the interfaces and before the last
one.  Names are put into these lines as they are.  That does no harm, since the names come from
object paths: they are made of letters, digits, underscores and slashes
(`Introspection.plain_of_mem_children`), and neither a quote nor a line break is among those.

So the lines of the document are the lines it was put together from
(`Introspection.documentLines_text`), the names stand in them up to the next quote, and no other
line looks like one of these.  The names read back in their order, and the document tells one
description from another (`Introspection.document_faithful`).
-/

import GattServer.Proofs.Children

namespace GattServer
namespace Introspection

/-! ### Reading a document -/

/-- The lines of a document: what stands before, between and after its line breaks. -/
def documentLines (document : String) : List String :=
  (document.toList.splitOn '\n').map String.ofList

/-- What a line about a child starts with. -/
def childFront : List Char := "  <node name=\"".toList

/-- What a line about a child ends in. -/
def childBack : List Char := "\"/>".toList

/-- The name in a line about a child: it goes up to the next quote. -/
def nameInLine? (line : String) : Option String :=
  if childFront <+: line.toList then
    let rest := line.toList.drop childFront.length
    if rest.dropWhile (· ≠ '"') = childBack then some (String.ofList (rest.takeWhile (· ≠ '"')))
    else none
  else none

/-- The names of the children in a document, in order. -/
def namesInDocument (document : String) : List String :=
  (documentLines document).filterMap nameInLine?

theorem toList_childLine (name : String) :
    (childLine name).toList = childFront ++ name.toList ++ childBack := by
  unfold childLine childFront childBack
  rw [String.toList_append, String.toList_append]

theorem prefix_childLine (name : String) : childFront <+: (childLine name).toList := by
  rw [toList_childLine, List.append_assoc]
  exact List.prefix_append ..

/-- **A name without quotes reads back from its line.** -/
theorem nameInLine?_childLine {name : String} (h : '"' ∉ name.toList) :
    nameInLine? (childLine name) = some name := by
  have hquote : ∀ c ∈ name.toList, decide (c ≠ '"') = true := fun c hc =>
    decide_eq_true fun heq => h (heq ▸ hc)
  have hrest : (childLine name).toList.drop childFront.length = name.toList ++ childBack := by
    rw [toList_childLine, List.append_assoc, List.drop_left]
  rw [nameInLine?, if_pos (prefix_childLine name)]
  dsimp only
  rw [hrest, List.dropWhile_append_of_pos hquote, List.takeWhile_append_of_pos hquote]
  simp [childBack]

/-- A line that starts differently names no child. -/
theorem nameInLine?_eq_none {line : String} (h : ¬ childFront <+: line.toList) :
    nameInLine? line = none := if_neg h

/-! ### Lines -/

/-- Lines that end in line breaks are separated by them, and an empty one follows. -/
theorem toList_join_lines (lines : List String) :
    (String.join (lines.map (· ++ "\n"))).toList =
      ['\n'].intercalate ((lines ++ [""]).map String.toList) := by
  induction lines with
  | nil => rfl
  | cons line lines ih =>
    have hbreak : "\n".toList = ['\n'] := rfl
    have hne : (lines ++ [""]).map String.toList ≠ [] := by simp
    rw [List.map_cons, String.join_cons, String.toList_append, ih, String.toList_append, hbreak,
      List.cons_append, List.map_cons, List.intercalate_cons_of_ne_nil hne]

/-- **A text of lines without line breaks in them** has these lines. -/
theorem documentLines_join {lines : List String} (h : ∀ line ∈ lines, '\n' ∉ line.toList) :
    documentLines (String.join (lines.map (· ++ "\n"))) = lines ++ [""] := by
  have hlines : ∀ cs ∈ (lines ++ [""]).map String.toList, '\n' ∉ cs := by
    simp only [List.forall_mem_map, List.forall_mem_append, List.forall_mem_singleton]
    exact ⟨h, List.not_mem_nil⟩
  rw [documentLines, toList_join_lines, List.splitOn_intercalate _ hlines (by simp), List.map_map]
  simp

/-- The lines that come before all others. -/
def opening : List String :=
  ["<!DOCTYPE node PUBLIC \"-//freedesktop//DTD D-BUS Object Introspection 1.0//EN\"",
    " \"http://www.freedesktop.org/standards/dbus/1.0/introspect.dtd\">",
    "<node>"]

/-- The last line; nothing stands behind its line break. -/
def closing : List String := ["</node>", ""]

/-- The lines that every document has. -/
def fixedLines : List String := opening ++ rootInterfaces.flatMap interfaceLines ++ closing

theorem fixedLines_plain :
    ∀ line ∈ fixedLines, '\n' ∉ line.toList ∧ ¬ childFront <+: line.toList := by
  decide +kernel

theorem lines_eq (t : Introspection) : t.lines ++ [""] =
    opening ++ rootInterfaces.flatMap interfaceLines ++ t.children.map childLine ++ closing := by
  rw [lines, List.append_assoc]
  rfl

/-! ### Names -/

/-- A name that needs no escaping: letters, digits, underscores and slashes. -/
def Plain (name : String) : Prop := ∀ c ∈ name.toList, c = '/' ∨ isWordChar c = true

theorem plain_stem (ss : List Segment) : Plain (ObjectPath.stem ⟨ss⟩) := by
  induction ss with
  | nil => exact List.forall_mem_nil _
  | cons s ss ih =>
    rw [Plain, ObjectPath.toList_stem_cons]
    refine List.forall_mem_cons.2 ⟨Or.inl rfl, List.forall_mem_append.2 ⟨fun c hc => ?_, ih⟩⟩
    exact Or.inr (List.all_eq_true.1 s.word c hc)

theorem plain_text (q : ObjectPath) : Plain q.text := by
  obtain ⟨_ | ⟨s, ss⟩⟩ := q
  · exact List.forall_mem_singleton.2 (Or.inl rfl)
  · exact plain_stem (s :: ss)

/-- A name has no character that the path does not have. -/
theorem mem_of_mem_childName {root path : String} {c : Char}
    (h : c ∈ (childName root path).toList) : c ∈ path.toList := by
  unfold childName at h
  split at h
  · rename_i rest hrest
    obtain ⟨-, hdrop⟩ := Option.ite_none_right_eq_some.1 hrest
    obtain rfl := Option.some.inj hdrop
    rw [String.toList_ofList] at h
    exact List.mem_of_mem_drop h
  · rw [String.toList_ofList] at h
    exact (List.dropWhile_sublist _).mem h

/-- **The names of children need no escaping.** -/
theorem plain_of_mem_children {root name : String} {paths : List String}
    (valid : ∀ path ∈ paths, ∃ q, ObjectPath.ofText? path = .ok q)
    (h : name ∈ (ofTree root paths).children) : Plain name := by
  obtain ⟨path, hpath, rfl⟩ := mem_children_ofTree.1 h
  obtain ⟨q, hq⟩ := valid path hpath
  obtain rfl := ObjectPath.text_of_ofText? hq
  exact fun c hc => plain_text q c (mem_of_mem_childName hc)

theorem Plain.notMem {name : String} {c : Char} (h : Plain name) (hc : c ≠ '/')
    (hword : isWordChar c = false) : c ∉ name.toList := by
  intro hmem
  rcases h c hmem with hslash | htrue
  · exact hc hslash
  · rw [hword] at htrue
    cases htrue

/-! ### The document -/

variable {root : String} {paths : List String} {t : Introspection}

/-- **The lines of the document** are those that it is put together from. -/
theorem documentLines_text (plain : ∀ name ∈ t.children, Plain name) :
    documentLines t.text =
      opening ++ rootInterfaces.flatMap interfaceLines ++ t.children.map childLine ++ closing := by
  rw [← lines_eq]
  refine documentLines_join fun line hline => ?_
  have hmem : line ∈ t.lines ++ [""] := List.mem_append_left _ hline
  rw [lines_eq, List.mem_append, List.mem_append, List.mem_map] at hmem
  rcases hmem with (hfixed | ⟨name, hname, rfl⟩) | hfixed
  · exact (fixedLines_plain line (List.mem_append_left _ hfixed)).1
  · rw [toList_childLine, List.mem_append, List.mem_append, not_or, not_or]
    exact ⟨⟨by decide, (plain name hname).notMem (by decide) (by decide)⟩, by decide⟩
  · exact (fixedLines_plain line (List.mem_append_right _ hfixed)).1

/-- **No other line names a child.** -/
theorem ne_childLine {line : String} (h : line ∈ fixedLines) (name : String) :
    line ≠ childLine name := by
  rintro rfl
  exact (fixedLines_plain _ h).2 (prefix_childLine name)

theorem filterMap_fixed {lines : List String} (h : lines ⊆ fixedLines) :
    lines.filterMap nameInLine? = [] :=
  List.filterMap_eq_nil_iff.2 fun line hline =>
    nameInLine?_eq_none (fixedLines_plain line (h hline)).2

/-- **The names read back from the document.** -/
theorem namesInDocument_text (plain : ∀ name ∈ t.children, Plain name) :
    namesInDocument t.text = t.children := by
  have hnames : (t.children.map childLine).filterMap nameInLine? = t.children := by
    rw [List.filterMap_map]
    refine (List.filterMap_congr fun name hname => ?_).trans List.filterMap_some
    exact nameInLine?_childLine ((plain name hname).notMem (by decide) (by decide))
  rw [namesInDocument, documentLines_text plain, List.filterMap_append, List.filterMap_append,
    hnames, filterMap_fixed (List.subset_append_left _ _),
    filterMap_fixed (List.subset_append_right _ _), List.nil_append, List.append_nil]

/-- **The document of a tree is faithful.**  It has the lines about the interfaces, then one line
for each child in their order, then the last one, and no other line is like one about a child.  The
names need no escaping and read back as the children; so two trees have the same document exactly
if they have the same description. -/
theorem document_faithful (valid : ∀ path ∈ paths, ∃ q, ObjectPath.ofText? path = .ok q) :
    documentLines (ofTree root paths).text =
        opening ++ (interfaceLines introspectable ++ interfaceLines objectManager) ++
          (ofTree root paths).children.map childLine ++ closing ∧
      (∀ line ∈ opening ++ (interfaceLines introspectable ++ interfaceLines objectManager) ++
        closing, ∀ name, line ≠ childLine name) ∧
      (∀ name ∈ (ofTree root paths).children, Plain name) ∧
      namesInDocument (ofTree root paths).text = (ofTree root paths).children ∧
      ∀ root' paths', (∀ path ∈ paths', ∃ q, ObjectPath.ofText? path = .ok q) →
        ((ofTree root paths).text = (ofTree root' paths').text ↔
          ofTree root paths = ofTree root' paths') := by
  have plain : ∀ name ∈ (ofTree root paths).children, Plain name := fun name =>
    plain_of_mem_children valid
  refine ⟨documentLines_text plain, fun line hline name => ne_childLine hline name, plain,
    namesInDocument_text plain, fun root' paths' valid' => ⟨fun h => ?_, congrArg text⟩⟩
  have hnames := congrArg namesInDocument h
  rw [namesInDocument_text plain,
    namesInDocument_text fun name => plain_of_mem_children valid'] at hnames
  exact congrArg Introspection.mk hnames

/-- The hypothesis is satisfiable: the document of a service and its characteristic tells their
names, and it is also that of the same tree below another root. -/
theorem document_faithful_service :
    namesInDocument (ofTree "/app" ["/app/service1/char1", "/app/service1"]).text =
        ["service1", "service1/char1"] ∧
      (ofTree "/app" ["/app/service1/char1", "/app/service1"]).text =
        (ofTree "/" ["/service1", "/service1/char1"]).text := by
  have below : ∀ path ∈ ["/app/service1/char1", "/app/service1"],
      ∃ q, ObjectPath.ofText? path = .ok q := by
    simp only [List.forall_mem_cons]
    exact ⟨⟨_, rfl⟩, ⟨_, rfl⟩, List.forall_mem_nil _⟩
  have beside : ∀ path ∈ ["/service1", "/service1/char1"],
      ∃ q, ObjectPath.ofText? path = .ok q := by
    simp only [List.forall_mem_cons]
    exact ⟨⟨_, rfl⟩, ⟨_, rfl⟩, List.forall_mem_nil _⟩
  obtain ⟨-, -, -, names, same⟩ := @document_faithful "/app" _ below
  exact ⟨names.trans (by decide +kernel), (same "/" _ beside).2 (by decide +kernel)⟩

end Introspection
end GattServer
