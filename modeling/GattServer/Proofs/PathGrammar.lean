/-
# The grammar of object paths

The check of a path looks at one byte after the other and at its neighbours: the first one is a
slash, no slash follows another one, the last one is no slash unless it is alone, and all others are
letters, digits and underscores (`ObjectPath.Sound`).  Seen as a whole, what passes is the root, or
words with a slash in front of each (`ObjectPath.IsPathText`); and it is not changed by reading.

The rules about neighbours are followed along the scan (`ObjectPath.exists_readSegments_iff`), where
all that the scan knows of the bytes behind it is whether the last one was a slash.  The grammar is
that of written paths, which read back.

Settings, devices and children put their paths together and have them checked.  For a device that
leaves a condition on its name: one or more words, joined by slashes.  For a child nothing is left
to check.
-/

import GattServer.Proofs.Children
import GattServer.Proofs.Course.Advertising

namespace GattServer
namespace ObjectPath

/-! ### Rules about neighbouring bytes -/

/-- A byte that may stand in a path. -/
def IsPathByte (b : UInt8) : Prop := b = 47 ∨ isWordChar (Char.ofUInt8 b) = true

/-- **The check of a path**, byte by byte. -/
structure Sound (bs : List UInt8) : Prop where
  /-- A slash comes first. -/
  starts : bs.head? = some 47
  /-- No slash follows a slash. -/
  apart : bs.IsChain fun b c => ¬ (b = 47 ∧ c = 47)
  /-- No slash comes last, unless it is alone. -/
  ends : 1 < bs.length → bs.getLast? ≠ some 47
  /-- Other bytes do not occur. -/
  known : ∀ b ∈ bs, IsPathByte b

/-- Bytes may follow `before` in a path. -/
structure Follow (before : UInt8) (bs : List UInt8) : Prop where
  apart : (before :: bs).IsChain fun b c => ¬ (b = 47 ∧ c = 47)
  ends : bs.getLast? ≠ some 47
  known : ∀ b ∈ bs, IsPathByte b

theorem sound_cons_iff {bs : List UInt8} : Sound (47 :: bs) ↔ Follow 47 bs := by
  constructor
  · intro h
    refine ⟨h.apart, ?_, fun b hb => h.known b (List.mem_cons_of_mem _ hb)⟩
    cases bs with
    | nil => nofun
    | cons b bs => simpa using h.ends (by simp)
  · intro h
    refine ⟨rfl, h.apart, fun hlength => ?_, List.forall_mem_cons.2 ⟨Or.inl rfl, h.known⟩⟩
    cases bs with
    | nil => simp at hlength
    | cons b bs => simpa using h.ends

theorem follow_nil (before : UInt8) : Follow before [] :=
  ⟨.singleton _, nofun, List.forall_mem_nil _⟩

theorem follow_cons_iff {before b : UInt8} {bs : List UInt8} :
    Follow before (b :: bs) ↔
      ¬ (before = 47 ∧ b = 47) ∧ IsPathByte b ∧ (b = 47 → bs ≠ []) ∧ Follow b bs := by
  constructor
  · intro ⟨apart, ends, known⟩
    obtain ⟨hpair, hrest⟩ := List.isChain_cons_cons.1 apart
    obtain ⟨hb, hbs⟩ := List.forall_mem_cons.1 known
    cases bs with
    | nil => exact ⟨hpair, hb, fun hslash _ => ends (congrArg some hslash), follow_nil b⟩
    | cons c bs =>
      rw [List.getLast?_cons_cons] at ends
      exact ⟨hpair, hb, fun _ => List.cons_ne_nil c bs, hrest, ends, hbs⟩
  · intro ⟨hpair, hb, hlast, follow⟩
    refine ⟨List.isChain_cons_cons.2 ⟨hpair, follow.apart⟩, ?_,
      List.forall_mem_cons.2 ⟨hb, follow.known⟩⟩
    cases bs with
    | nil => exact fun hslash => hlast (Option.some.inj hslash) rfl
    | cons c bs =>
      rw [List.getLast?_cons_cons]
      exact follow.ends

/-- What ends in a fault does not end well. -/
theorem not_exists_ok {ε α : Type} {e : ε} : ¬ ∃ a : α, (.error e : Except ε α) = .ok a := by
  rintro ⟨a, ha⟩
  cases ha

/-- **A scan goes through** exactly if the bytes may follow what came before: a slash if the run is
empty, and otherwise something else. -/
theorem exists_readSegments_iff {run : Segment.Run} {bs : List UInt8} {before : UInt8}
    (hbefore : before = 47 ↔ run.1 = []) :
    (∃ ss, readSegments run bs = .ok ss) ↔ Follow before bs := by
  fun_induction readSegments run bs generalizing before with
  | case1 run => exact iff_of_true ⟨_, rfl⟩ (follow_nil before)
  | case2 run rest hrun =>
    -- a slash after a slash
    exact iff_of_false not_exists_ok fun h => (follow_cons_iff.1 h).1 ⟨hbefore.2 hrun, rfl⟩
  | case3 run hrun =>
    -- a slash at the end
    exact iff_of_false not_exists_ok fun h => h.ends rfl
  | case4 run rest hrun hrest ih =>
    rw [follow_cons_iff, ← ih (iff_of_true rfl rfl)]
    constructor
    · rintro ⟨ss, hss⟩
      refine ⟨fun hboth => hrun (hbefore.1 hboth.1), Or.inl rfl, fun _ => hrest, ?_⟩
      cases hread : readSegments .nil rest with
      | error fault =>
        rw [hread] at hss
        cases hss
      | ok more => exact ⟨more, rfl⟩
    · rintro ⟨-, -, -, more, hmore⟩
      rw [hmore]
      exact ⟨_, rfl⟩
  | case5 run b rest hb hword ih =>
    have hpush : (run.push (Char.ofUInt8 b) hword).1 ≠ [] :=
      List.append_ne_nil_of_right_ne_nil _ (List.cons_ne_nil _ _)
    rw [follow_cons_iff, ← ih (iff_of_false hb hpush)]
    exact ⟨fun h => ⟨fun hboth => hb hboth.2, Or.inr hword, fun hslash => absurd hslash hb, h⟩,
      fun h => h.2.2.2⟩
  | case6 run b rest hb hword =>
    exact iff_of_false not_exists_ok fun h => (follow_cons_iff.1 h).2.1.elim hb hword

/-- **A text passes the check** exactly if its bytes keep to the rules. -/
theorem exists_ofText?_iff_sound {s : String} :
    (∃ p, ofText? s = .ok p) ↔ Sound (Text.bytes s) := by
  unfold ofText?
  split
  · rename_i hs
    rw [hs]
    exact iff_of_false not_exists_ok fun h => nomatch h.starts
  · rename_i b rest hs
    rw [hs]
    split_ifs with hslash
    · subst hslash
      rw [sound_cons_iff, ← @exists_readSegments_iff .nil rest 47 (iff_of_true rfl rfl)]
      cases readSegments .nil rest with
      | error fault => exact iff_of_false not_exists_ok not_exists_ok
      | ok ss => exact iff_of_true ⟨_, rfl⟩ ⟨_, rfl⟩
    · exact iff_of_false exists_false fun h => hslash (Option.some.inj h.starts)

/-! ### The grammar -/

/-- One or more letters, digits and underscores. -/
def IsWord (w : String) : Prop := w ≠ "" ∧ ∀ c ∈ w.toList, isWordChar c = true

/-- **The grammar of paths**: the root, or one or more words with a slash in front of each. -/
def IsPathText (s : String) : Prop :=
  s = "/" ∨ ∃ words : List String, words ≠ [] ∧ (∀ w ∈ words, IsWord w) ∧
    s = String.join (words.map ("/" ++ ·))

theorem isWord_text (s : Segment) : IsWord s.text :=
  ⟨fun h => s.ne_nil (congrArg String.toList h), List.all_eq_true.1 s.word⟩

/-- Words are the texts of segments. -/
theorem exists_segments {words : List String} (h : ∀ w ∈ words, IsWord w) :
    ∃ ss : List Segment, ss.map Segment.text = words := by
  induction words with
  | nil => exact ⟨[], rfl⟩
  | cons w words ih =>
    obtain ⟨⟨hne, hword⟩, hwords⟩ := List.forall_mem_cons.1 h
    obtain ⟨ss, rfl⟩ := ih hwords
    refine ⟨⟨w, fun hnil => hne (String.toList_inj.1 hnil), List.all_eq_true.2 hword⟩ :: ss, rfl⟩

theorem stem_eq_join (ss : List Segment) :
    stem ⟨ss⟩ = String.join ((ss.map Segment.text).map ("/" ++ ·)) := by
  rw [List.map_map]
  rfl

/-- **What passes the check is the grammar.** -/
theorem exists_ofText?_iff {s : String} : (∃ p, ofText? s = .ok p) ↔ IsPathText s := by
  constructor
  · rintro ⟨⟨ss⟩, h⟩
    obtain rfl := text_of_ofText? h
    by_cases hss : ss = []
    · exact Or.inl (if_pos hss)
    · refine Or.inr ⟨ss.map Segment.text, by simpa using hss, ?_, ?_⟩
      · exact List.forall_mem_map.2 fun s _ => isWord_text s
      · rw [← stem_eq_join]
        exact if_neg hss
  · rintro (rfl | ⟨words, hne, hwords, rfl⟩)
    · exact ⟨root, ofText?_text root⟩
    · obtain ⟨ss, rfl⟩ := exists_segments hwords
      rw [← stem_eq_join]
      exact ⟨⟨ss⟩, ofText?_stem (by simpa using hne)⟩

/-! ### Devices -/

/-- One or more words, with a slash between them. -/
def IsDeviceName (name : String) : Prop :=
  ∃ words : List String, words ≠ [] ∧ (∀ w ∈ words, IsWord w) ∧ name = "/".intercalate words

theorem slash_intercalate {words : List String} (h : words ≠ []) :
    "/" ++ "/".intercalate words = String.join (words.map ("/" ++ ·)) := by
  induction words with
  | nil => exact absurd rfl h
  | cons w words ih =>
    cases words with
    | nil => simp
    | cons v words =>
      have hrest := ih (List.cons_ne_nil v words)
      rw [String.intercalate_cons_cons, List.map_cons, String.join_cons, ← hrest]
      simp only [String.append_assoc]

/-- The path that devices lie below. -/
def adapters : ObjectPath := ⟨advertisementPath.segments.take 2⟩

theorem deviceStem_eq : deviceStem = adapters.stem ++ "/" := rfl

/-- The path of a device is that of the adapters with the words of its name behind. -/
theorem stem_device {ss : List Segment} (h : ss ≠ []) :
    stem ⟨adapters.segments ++ ss⟩ = deviceStem ++ "/".intercalate (ss.map Segment.text) := by
  rw [stem_append, stem_eq_join ss, ← slash_intercalate (by simpa using h), deviceStem_eq,
    String.append_assoc]

/-- What starts like the path of a device lies below the adapters. -/
theorem exists_of_deviceStem {qs : List Segment} {name : String}
    (h : stem ⟨qs⟩ = deviceStem ++ name) : ∃ s ss, qs = adapters.segments ++ s :: ss := by
  refine isBelow_of_stem ⟨name.toList, ?_⟩
  rw [h, deviceStem_eq, String.toList_append, String.toList_append]
  rfl

/-- **The path of a device passes the check** exactly if its name is made of words. -/
theorem exists_ofText?_device_iff {name : String} :
    (∃ p, ofText? (deviceStem ++ name) = .ok p) ↔ IsDeviceName name := by
  constructor
  · rintro ⟨⟨qs⟩, h⟩
    have htext := text_of_ofText? h
    have hqs : qs ≠ [] := by
      rintro rfl
      have hlong : deviceStem.length ≤ (text ⟨[]⟩).length := by
        rw [htext, String.length_append]
        exact Nat.le_add_right _ _
      exact absurd hlong (by decide)
    rw [text, if_neg hqs] at htext
    obtain ⟨s, ss, rfl⟩ := exists_of_deviceStem htext
    rw [stem_device (List.cons_ne_nil s ss), String.append_right_inj] at htext
    exact ⟨_, by simp, List.forall_mem_map.2 fun s _ => isWord_text s, htext.symm⟩
  · rintro ⟨words, hne, hwords, rfl⟩
    obtain ⟨ss, rfl⟩ := exists_segments hwords
    have hss : ss ≠ [] := by simpa using hne
    rw [← stem_device hss]
    exact ⟨⟨adapters.segments ++ ss⟩, ofText?_stem (by simp [hss])⟩

/-- **Starting to advertise** goes on to a call exactly if the device has a name made of words;
otherwise it ends at once and leaves everything as it is. -/
theorem startAdvertising_iff {app app' : Application} {name : String}
    {t : List (Exchange Application)} {r : Answer} (inactive : app.isAdvertising = false)
    (h : app.Performs (Application.startAdvertising name) t r app') :
    (IsDeviceName name → ∃ answer rest, t = ⟨app, app.exportedAdvertisement, answer⟩ :: rest) ∧
      (¬ IsDeviceName name → t = [] ∧ app' = app ∧ ∃ fault, r = .error (.malformedPath fault)) := by
  rw [← exists_ofText?_device_iff]
  cases Application.performs_startAdvertising h with
  | active hactive =>
    rw [inactive] at hactive
    cases hactive
  | malformed _ hfault =>
    rw [hfault]
    exact ⟨nofun, fun _ => ⟨rfl, rfl, _, rfl⟩⟩
  | unexported _ hdevice | exported _ hdevice =>
    exact ⟨fun _ => ⟨_, _, rfl⟩, fun hno => absurd ⟨_, hdevice⟩ hno⟩

/-! ### Settings and children -/

theorem validate_eq_ok_iff {s : Settings} {p : ObjectPath} :
    s.validate = .ok p ↔ s.name ≠ "" ∧ ofText? s.path = .ok p := by
  unfold Settings.validate
  split_ifs with hname hpath
  · exact iff_of_false nofun fun h => h.1 hname
  · refine iff_of_false nofun fun h => ?_
    have hread := h.2
    rw [hpath] at hread
    cases hread
  · rw [and_iff_right hname]
    cases ofText? s.path with
    | error fault => exact iff_of_false nofun nofun
    | ok q => exact ⟨fun h => congrArg _ (Except.ok.inj h), fun h => congrArg _ (Except.ok.inj h)⟩

/-- The labels of the numbered parts of a tree. -/
def labels : List String := [serviceLabel, characteristicLabel, descriptorLabel]

/-- **A child of any of these labels passes the check**, whatever its number. -/
theorem exists_child? (p : ObjectPath) {label : String} (h : label ∈ labels) (n : UInt32) :
    ∃ q, p.child? label n = .ok q := by
  have hsegment : ∃ s : Segment, s.text = label := by
    simp only [labels, List.mem_cons, List.not_mem_nil, or_false] at h
    rcases h with rfl | rfl | rfl
    · exact ⟨.service, rfl⟩
    · exact ⟨.characteristic, rfl⟩
    · exact ⟨.descriptor, rfl⟩
  obtain ⟨s, rfl⟩ := hsegment
  exact ⟨_, child?_numbered p s n⟩

/-- **The check of paths.**  The rules about neighbouring bytes let through what the grammar says,
and reading does not change it.  So settings are valid exactly if they have a name and such a path,
the path of a device passes exactly if its name is made of words, and the path of a numbered child
of a path passes always. -/
theorem check_accepts_grammar :
    (∀ s, (∃ p, ofText? s = .ok p) ↔ Sound (Text.bytes s)) ∧
      (∀ s, (∃ p, ofText? s = .ok p) ↔ IsPathText s) ∧
      (∀ s p, ofText? s = .ok p → p.text = s) ∧
      (∀ settings : Settings, ((∃ p, settings.validate = .ok p) ↔
          settings.name ≠ "" ∧ IsPathText settings.path) ∧
        ∀ p, settings.validate = .ok p → p.text = settings.path) ∧
      (∀ name, (∃ p, ofText? (deviceStem ++ name) = .ok p) ↔ IsDeviceName name) ∧
      (∀ (app app' : Application) name t r, app.isAdvertising = false →
        app.Performs (Application.startAdvertising name) t r app' →
        (IsDeviceName name →
          ∃ answer rest, t = ⟨app, app.exportedAdvertisement, answer⟩ :: rest) ∧
        (¬ IsDeviceName name →
          t = [] ∧ app' = app ∧ ∃ fault, r = .error (.malformedPath fault))) ∧
      ∀ parent p, ofText? parent = .ok p → ∀ label ∈ labels, ∀ n,
        ∃ q, p.child? label n = .ok q ∧
          q.text = Introspection.joined parent (label ++ toString n.toNat) := by
  refine ⟨fun s => exists_ofText?_iff_sound, fun s => exists_ofText?_iff,
    fun s p h => text_of_ofText? h, fun settings => ⟨?_, fun p h => ?_⟩,
    fun name => exists_ofText?_device_iff,
    fun app app' name t r inactive h => startAdvertising_iff inactive h,
    fun parent p h label hlabel n => ?_⟩
  · rw [← exists_ofText?_iff]
    simp only [validate_eq_ok_iff, exists_and_left]
  · exact text_of_ofText? (validate_eq_ok_iff.1 h).2
  · obtain ⟨q, hq⟩ := p.exists_child? hlabel n
    refine ⟨q, hq, ?_⟩
    obtain rfl := text_of_ofText? h
    rw [text_of_ofText? hq, Introspection.joined_text]
    simp only [String.append_assoc]

/-- The hypotheses are satisfiable: an application that does nothing yet starts to advertise with a
device whose name has a hyphen in it, and ends at once. -/
theorem check_accepts_grammar_hyphen :
    let app := Application.fresh 0 ⟨{ name := "org.example.app", path := "/" }, root⟩
    ∃ t r app', app.isAdvertising = false ∧
      app.Performs (Application.startAdvertising "hci-0") t r app' ∧
      ¬ IsDeviceName "hci-0" ∧ t = [] ∧ app' = app := by
  intro app
  obtain ⟨-, -, -, -, device, start, -⟩ := check_accepts_grammar
  have performs : app.Performs (Application.startAdvertising "hci-0") []
      (.error (.malformedPath (.character '-'))) app := .done _
  have hyphen : ¬ IsDeviceName "hci-0" := fun h => by
    obtain ⟨p, hp⟩ := (device "hci-0").2 h
    cases hp
  obtain ⟨ht, happ, -⟩ := (start app app "hci-0" _ _ rfl performs).2 hyphen
  exact ⟨_, _, _, rfl, performs, hyphen, ht, happ⟩

end ObjectPath
end GattServer
