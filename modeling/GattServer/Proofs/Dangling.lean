/-
# Nothing dangles

At every moment, whatever the bus answers, the objects that an application lists are there: each
key of its directory is exported as an object of the kind that the entry describes, each live node
is exported, and the nodes that an entry names above it are listed too
(`Application.nothing_dangles`).  The bus may hold anything to begin with and may fail any call; it
only has to refuse to export what it holds already.

The invariant behind this (`Application.Sound`) describes the keys by their paths alone.  A key
tells its kind, the path above it and the path of its service, and both of these are keys as well.
So the keys of a service that is half taken out still hold together: children are taken out before
their parents.  What is left of it stays exported, so that the bus refuses to export its path again
and no other service can take its place.
-/

import GattServer.Proofs.Entries
import GattServer.Proofs.History

namespace GattServer

namespace Application

variable {root : ObjectPath} {app app' : Application} {s : Service} {n : Node} {a : Act}
  {acts : List Act} {nodes done rest : List Node} {t u : List (Exchange Application)} {r : Answer}
  {H H' : Held} {p q : ObjectPath} {k : ObjectKind}

/-! ### The invariant -/

/-- What an application shows and a bus holds fit together. -/
structure Sound (app : Application) (H : Held) : Prop where
  /-- The live services are well-formed and their paths differ. -/
  tidy : app.Tidy fun _ => True
  /-- Live nodes are exported. -/
  live : ∀ n ∈ app.nodes, n.pair ∈ H
  /-- What is listed is exported, and the entry fits its path. -/
  entry : ∀ q interfaces, app.directory.find? q = some interfaces →
    ∃ k, interfaces.Fits q k ∧ (q, k) ∈ H
  /-- Under the path of a live service only its own nodes are listed. -/
  own : ∀ q ∈ app.directory.keys, ∀ u ∈ app.services, u.path = q.owner →
    q ∈ u.nodes.map Node.path
  /-- The path above a characteristic or descriptor is listed. -/
  parent : ∀ q ∈ app.directory.keys, q.kind? ≠ some .service → q.parent ∈ app.directory.keys
  /-- So is the path of its service. -/
  owner : ∀ q ∈ app.directory.keys, q.owner ∈ app.directory.keys

/-- A path that is listed, or that of a live node. -/
def Shows (app : Application) (q : ObjectPath) : Prop :=
  q ∈ app.directory.keys ∨ q ∈ app.nodes.map Node.path

namespace Sound

theorem exists_held (h : app.Sound H) (hq : q ∈ app.directory.keys) :
    ∃ k, q.kind? = some k ∧ (q, k) ∈ H := by
  obtain ⟨interfaces, hfind⟩ := Option.isSome_iff_exists.1 (FinMap.mem_keys_iff.1 hq)
  obtain ⟨k, hfits, hmem⟩ := h.entry q interfaces hfind
  exact ⟨k, hfits.kind, hmem⟩

/-- The invariant is about no objects but those that are shown. -/
theorem of_held (h : app.Sound H)
    (hH : ∀ q k, app.Shows q → k.isNode = true → (q, k) ∈ H → (q, k) ∈ H') : app.Sound H' where
  tidy := h.tidy
  live n hn := hH _ _ (Or.inr (List.mem_map_of_mem hn)) n.isNode_kind (h.live n hn)
  entry q interfaces hfind := by
    obtain ⟨k, hfits, hmem⟩ := h.entry q interfaces hfind
    have hkey := FinMap.mem_keys_of_find? hfind
    exact ⟨k, hfits, hH q k (Or.inl hkey) (ObjectPath.isNode_of_kind? hfits.kind) hmem⟩
  own := h.own
  parent := h.parent
  owner := h.owner

theorem sameViews (h : app.Sound H) (same : app.SameViews app') : app'.Sound H := by
  have hdirectory := same.directory
  refine ⟨h.tidy.of_services same.services, same.nodes ▸ h.live, hdirectory ▸ h.entry, ?_,
    hdirectory ▸ h.parent, hdirectory ▸ h.owner⟩
  rw [hdirectory, same.services]
  exact h.own

/-- **What a bus does not hold the service of is not shown**: neither listed nor live. -/
theorem not_shows (h : app.Sound H) (hs : s.Rooted root) (hnew : app.service? s.path = none)
    (hfree : (s.path, ObjectKind.service) ∉ H) (hn : n ∈ s.nodes) : ¬ app.Shows n.path := by
  rintro (hkey | hlive)
  · have howner := h.owner _ hkey
    rw [hs.owner_eq hn] at howner
    obtain ⟨k, hk, hmem⟩ := h.exists_held howner
    have hservice : s.path.kind? = some .service := hs.kind?_eq (n := .service s) List.mem_cons_self
    rw [hservice] at hk
    cases hk
    exact hfree hmem
  · obtain ⟨m, hm, hpath⟩ := List.mem_map.1 hlive
    exact h.tidy.path_ne hs hnew hm hn hpath

/-! ### Steps -/

theorem adopt (h : app.Sound H) (hs : s.Rooted root) (hnew : app.service? s.path = none)
    (hfree : (s.path, ObjectKind.service) ∉ H) (hH : ∀ x ∈ H, x ∈ H')
    (hnodes : ∀ n ∈ s.nodes, n.pair ∈ H') : (app.adopt s).Sound H' where
  tidy := h.tidy.adopt trivial hs hnew
  live n hn := by
    rw [nodes_adopt] at hn
    rcases List.mem_append.1 hn with hn | hn
    · exact hH _ (h.live n hn)
    · exact hnodes n hn
  entry q interfaces hfind := by
    obtain ⟨k, hfits, hmem⟩ := h.entry q interfaces hfind
    exact ⟨k, hfits, hH _ hmem⟩
  own q hq u hu hpath := by
    rcases List.mem_append.1 hu with hu | hu
    · exact h.own q hq u hu hpath
    · rw [List.mem_singleton.1 hu] at hpath
      have howner : app.Shows s.path := Or.inl (hpath ▸ h.owner q hq)
      exact absurd howner (h.not_shows hs hnew hfree (n := .service s) List.mem_cons_self)
  parent := h.parent
  owner := h.owner

/-- **Entering some first nodes of a live service.** -/
theorem enter (h : app.Sound H) (hs : s ∈ app.services) (hnodes : s.nodes = done ++ rest) :
    (app.enter done).Sound H := by
  obtain ⟨root, -, hrooted⟩ := h.tidy.rooted s hs
  have hmem : ∀ n ∈ done, n ∈ s.nodes := fun n hn => hnodes ▸ List.mem_append_left _ hn
  have hnodup := hrooted.nodup_paths_of_append hnodes
  refine ⟨h.tidy.enter, h.live, fun q interfaces hfind => ?_,
    fun q hq u hu hpath => ?_, fun q hq hkind => ?_, fun q hq => ?_⟩
  · by_cases hq : q ∈ done.map Node.path
    · obtain ⟨n, hn, rfl⟩ := List.mem_map.1 hq
      rw [find?_enter_of_mem hnodup hn] at hfind
      cases hfind
      exact ⟨n.kind, hrooted.fits (hmem n hn), h.live n (mem_nodes.2 ⟨s, hs, hmem n hn⟩)⟩
    · rw [find?_enter_of_notMem hq] at hfind
      exact h.entry q interfaces hfind
  · rcases (mem_keys_enter hnodup).1 hq with hq | hq
    · exact h.own q hq u hu hpath
    · obtain ⟨n, hn, rfl⟩ := List.mem_map.1 hq
      rw [hrooted.owner_eq (hmem n hn)] at hpath
      rw [h.tidy.unique hu hs hpath]
      exact List.mem_map_of_mem (hmem n hn)
  · rw [mem_keys_enter hnodup] at hq ⊢
    rcases hq with hq | hq
    · exact Or.inl (h.parent q hq hkind)
    · obtain ⟨n, hn, rfl⟩ := List.mem_map.1 hq
      exact Or.inr (hrooted.parent_mem_of_append hnodes hn hkind)
  · rw [mem_keys_enter hnodup] at hq ⊢
    rcases hq with hq | hq
    · exact Or.inl (h.owner q hq)
    · obtain ⟨n, hn, rfl⟩ := List.mem_map.1 hq
      exact Or.inr (hrooted.owner_mem_of_append hnodes hn)

theorem disown (h : app.Sound H) : (app.disown p).Sound H where
  tidy := h.tidy.disown
  live n hn := h.live n (h.tidy.mem_nodes_disown.1 hn).1
  entry := h.entry
  own q hq u hu := h.own q hq u (h.tidy.mem_disown.1 hu).1
  parent := h.parent
  owner := h.owner

/-- **Taking some last nodes of a service out**, when it is not live and nothing else is listed
under its path. -/
theorem leave (h : app.Sound H) (hs : s.Rooted root)
    (hown : ∀ q ∈ app.directory.keys, q.owner = s.path → q ∈ s.nodes.map Node.path)
    (hnodes : s.nodes.reverse = done ++ rest) : (app.leave done).Sound H := by
  have hsplit : s.nodes = rest.reverse ++ done.reverse := by
    rw [← List.reverse_append, ← hnodes, List.reverse_reverse]
  have hdone : ∀ n ∈ done, n ∈ s.nodes := fun n hn => by
    rw [hsplit]
    exact List.mem_append_right _ (List.mem_reverse.2 hn)
  have hapart : ∀ p ∈ rest.reverse.map Node.path, p ∉ done.map Node.path := by
    intro p hp hgone
    rw [← List.mem_reverse, ← List.map_reverse] at hgone
    exact hs.notMem_paths_of_append hsplit hgone hp
  have hstays : ∀ q ∈ (app.leave done).directory.keys, q.owner = s.path →
      ∃ n ∈ rest.reverse, n.path = q := by
    intro q hq howner
    obtain ⟨hkey, hout⟩ := mem_keys_leave.1 hq
    obtain ⟨n, hn, rfl⟩ := List.mem_map.1 (hown q hkey howner)
    rw [hsplit] at hn
    refine ⟨n, (List.mem_append.1 hn).resolve_right fun hn => hout ?_, rfl⟩
    exact List.mem_map_of_mem (List.mem_reverse.1 hn)
  refine ⟨h.tidy.leave, h.live, fun q interfaces hfind => ?_,
    fun q hq u hu => h.own q (mem_keys_leave.1 hq).1 u hu, fun q hq hkind => ?_, fun q hq => ?_⟩
  · rw [find?_leave] at hfind
    split_ifs at hfind
    exact h.entry q interfaces hfind
  · refine mem_keys_leave.2 ⟨h.parent q (mem_keys_leave.1 hq).1 hkind, fun hgone => ?_⟩
    obtain ⟨m, hm, hmq⟩ := List.mem_map.1 hgone
    have howner : q.owner = s.path := by
      rw [← ObjectPath.owner_parent hkind, ← hmq, hs.owner_eq (hdone m hm)]
    obtain ⟨n, hn, rfl⟩ := hstays q hq howner
    exact hapart _ (hs.parent_mem_of_append hsplit hn hkind) hgone
  · refine mem_keys_leave.2 ⟨h.owner q (mem_keys_leave.1 hq).1, fun hgone => ?_⟩
    obtain ⟨m, hm, hmq⟩ := List.mem_map.1 hgone
    have howner : q.owner = s.path := by
      rw [← hs.owner_eq (hdone m hm), hmq, ObjectPath.owner_owner]
    obtain ⟨n, hn, rfl⟩ := hstays q hq howner
    exact hapart _ (hs.owner_mem_of_append hsplit hn) hgone

theorem showing (h : app.Sound H) {path : ObjectPath} {value : List UInt8}
    {services : List Service} (hset : setValueIn? path value app.services = some services) :
    (app.showing path value services).Sound H := by
  refine ⟨h.tidy.showing hset, fun n hn => ?_, fun q interfaces hfind => ?_,
    fun q hq u hu hpath => ?_, fun q hq hkind => ?_, fun q hq => ?_⟩
  · have hpair := List.mem_map_of_mem (f := Node.pair) hn
    rw [h.tidy.pairs_showing hset] at hpair
    obtain ⟨m, hm, hmn⟩ := List.mem_map.1 hpair
    exact hmn ▸ h.live m hm
  · rw [find?_showing] at hfind
    split_ifs at hfind
    · obtain ⟨old, hold, rfl⟩ := Option.map_eq_some_iff.1 hfind
      obtain ⟨k, hfits, hmem⟩ := h.entry q old hold
      exact ⟨k, hfits.withValue value, hmem⟩
    · exact h.entry q interfaces hfind
  · obtain ⟨v, hv, hvpath, hfaces⟩ := h.tidy.exists_of_mem_showing hset hu
    have hmem := h.own q (mem_keys_showing.1 hq) v hv (hvpath ▸ hpath)
    have hpaths := congrArg (List.map Node.Face.path) hfaces
    simp only [List.map_map, Function.comp_def, Node.Face.path_withValue] at hpaths
    exact (congrArg (q ∈ ·) hpaths).mpr hmem
  · exact mem_keys_showing.2 (h.parent q (mem_keys_showing.1 hq) hkind)
  · exact mem_keys_showing.2 (h.owner q (mem_keys_showing.1 hq))

/-! ### Stretches of an operation -/

/-- **A stretch in which the application shows the same** keeps the invariant, if the bus neither
gains nor loses anything that is shown. -/
theorem still (h : app.Sound H) (states : ∀ e ∈ t, app.SameViews e.state)
    (hmoved : ∀ e ∈ t, ∀ q k, e.moved? = some (q, k) → k.isNode = true → ¬ app.Shows q) :
    Throughout Sound H t ∧ app.Sound (held H t) := by
  have hreached : ∀ before after, t = before ++ after → app.Sound (held H before) := by
    rintro before after rfl
    refine h.of_held fun q k hshows hk hmem => (mem_held_of_unmoved fun e he hq => ?_).2 hmem
    exact hmoved e (List.mem_append_left _ he) q k hq hk hshows
  refine ⟨fun before e after ht => ?_, hreached t [] (List.append_nil t).symm⟩
  have hstate := states e (by rw [ht]; simp)
  exact ⟨(hreached before (e :: after) ht).sameViews hstate,
    (hreached (before ++ [e]) after (by rw [ht]; simp)).sameViews hstate⟩

/-- A stretch in which the bus neither gains nor loses anything. -/
theorem unmoved (h : app'.Sound H) (hobject : ∀ e ∈ t, e.call.object? = none)
    (states : ∀ e ∈ t, e.state.Sound H) : Throughout Sound H t ∧ app'.Sound (held H t) := by
  have hmoved : ∀ e ∈ t, e.moved? = none := fun e he =>
    Exchange.moved?_of_object?_eq_none (hobject e he)
  rw [held_of_unmoved hmoved]
  exact ⟨throughout_of_unmoved hmoved states, h⟩

/-- One stretch after another. -/
theorem append (h : Throughout Sound H t)
    (h' : Throughout Sound (held H t) u ∧ app'.Sound (held (held H t) u)) :
    Throughout Sound H (t ++ u) ∧ app'.Sound (held H (t ++ u)) := by
  rw [held_append]
  exact ⟨h.append h'.1, h'.2⟩

/-- The nodes of a service are exported; then it can go live. -/
theorem exporting (h : app.Sound H) (hs : s.Rooted root) (hnew : app.service? s.path = none)
    (refusing : Refusing H (app.exporting s.nodes)) :
    Throughout Sound H (app.exporting s.nodes) ∧
      (app.adopt s).Sound (held H (app.exporting s.nodes)) := by
  have hfree : (s.path, ObjectKind.service) ∉ H :=
    notMem_of_refusing_exporting refusing (n := .service s) List.mem_cons_self
  constructor
  · refine (h.still (fun e he => ?_) fun e he q k hmoved _ => ?_).1
    · obtain ⟨n, -, rfl⟩ := mem_exporting he
      exact ⟨rfl, rfl, rfl⟩
    · obtain ⟨n, hn, rfl⟩ := mem_exporting he
      have hobject := Exchange.object?_of_moved? hmoved
      rw [Node.object?_exported] at hobject
      cases hobject
      exact h.not_shows hs hnew hfree hn
  · refine h.adopt hs hnew hfree (fun x hx => ?_) fun n hn => ?_
    · exact mem_held_exporting.2 (Or.inl hx)
    · exact mem_held_exporting.2 (Or.inr (List.mem_map_of_mem hn))

/-- Exports are taken back, and nothing that is shown is lost over it. -/
theorem rollBack (h : app.Sound H) (hs : s.Rooted root) (hnew : app.service? s.path = none)
    {e : Error} {back : List (Exchange Application)} (hnodes : s.nodes = done ++ n :: rest)
    (withdrawals : back.map Exchange.question = done.reverse.map fun m => (app, m.withdrawn))
    (refusing : Refusing H (app.exporting done)) :
    Throughout Sound H (app.exporting done ++ ⟨app, n.exported app.id, .error e⟩ :: back) ∧
      app.Sound (held H (app.exporting done ++ ⟨app, n.exported app.id, .error e⟩ :: back)) := by
  refine h.still (fun f hf => ?_) fun f hf q k hmoved _ => ?_
  · rcases List.mem_append.1 hf with hf | hf
    · obtain ⟨m, -, rfl⟩ := mem_exporting hf
      exact ⟨rfl, rfl, rfl⟩
    · rcases List.mem_cons.1 hf with rfl | hf
      · exact ⟨rfl, rfl, rfl⟩
      · rw [(mem_of_question withdrawals hf).1]
        exact ⟨rfl, rfl, rfl⟩
  · have hnode : ∃ m ∈ done, m.pair = (q, k) := by
      rcases List.mem_append.1 hf with hf | hf
      · obtain ⟨m, hm, rfl⟩ := mem_exporting hf
        have hobject := Exchange.object?_of_moved? hmoved
        rw [Node.object?_exported] at hobject
        exact ⟨m, hm, Option.some.inj hobject⟩
      · rcases List.mem_cons.1 hf with rfl | hf
        · cases hmoved
        · obtain ⟨-, m, hm, hcall⟩ := mem_of_question withdrawals hf
          have hobject := Exchange.object?_of_moved? hmoved
          rw [hcall, Node.object?_withdrawn] at hobject
          exact ⟨m, List.mem_reverse.1 hm, Option.some.inj hobject⟩
    obtain ⟨m, hm, hpair⟩ := hnode
    -- something was exported, so the service was, which comes first
    have hfree : (s.path, ObjectKind.service) ∉ H := by
      obtain ⟨first, more, rfl⟩ := List.exists_cons_of_ne_nil (List.ne_nil_of_mem hm)
      obtain ⟨rfl, -⟩ := List.cons.inj hnodes
      exact notMem_of_refusing_exporting refusing (n := .service s) List.mem_cons_self
    obtain rfl : m.path = q := congrArg Prod.fst hpair
    exact h.not_shows hs hnew hfree (hnodes ▸ List.mem_append_left _ hm)

/-- The first nodes of a live service are announced. -/
theorem announcing (h : app.Sound H) (hs : s ∈ app.services) (hnodes : s.nodes = done ++ rest)
    {e : Exchange Application} (he : e ∈ app.announcing done) : e.state.Sound H := by
  obtain ⟨before, n, after, rfl, rfl⟩ := mem_announcing he
  have hsplit : s.nodes = (before ++ [n]) ++ (after ++ rest) := by simpa using hnodes
  exact h.enter hs hsplit

/-- The last nodes of a service are retracted. -/
theorem retracting (h : app.Sound H) (hs : s.Rooted root)
    (hown : ∀ q ∈ app.directory.keys, q.owner = s.path → q ∈ s.nodes.map Node.path)
    (hnodes : s.nodes.reverse = done ++ rest) {e : Exchange Application}
    (he : e ∈ app.retracting done) : e.state.Sound H := by
  obtain ⟨before, n, after, interfaces, rfl, rfl⟩ := mem_retracting he
  have hsplit : s.nodes.reverse = (before ++ [n]) ++ (after ++ rest) := by simpa using hnodes
  exact h.leave hs hown hsplit

/-- The last nodes of a service that is neither live nor listed are withdrawn. -/
theorem withdrawing (h : app.Sound H) (hgone : ∀ n ∈ s.nodes, ¬ app.Shows n.path)
    (hnodes : s.nodes.reverse = done ++ rest) {last : Exchange Application}
    (hstate : last.state = app) (hlast : last.moved? = none) :
    Throughout Sound H (app.withdrawing done ++ [last]) ∧
      app.Sound (held H (app.withdrawing done ++ [last])) := by
  refine h.still (fun e he => ?_) fun e he q k hmoved _ => ?_
  · rcases List.mem_append.1 he with he | he
    · obtain ⟨n, -, rfl⟩ := mem_withdrawing he
      exact ⟨rfl, rfl, rfl⟩
    · rw [List.mem_singleton.1 he, hstate]
      exact ⟨rfl, rfl, rfl⟩
  · rcases List.mem_append.1 he with he | he
    · obtain ⟨n, hn, rfl⟩ := mem_withdrawing he
      have hobject := Exchange.object?_of_moved? hmoved
      rw [Node.object?_withdrawn] at hobject
      cases hobject
      refine hgone n ?_
      rw [← List.mem_reverse, hnodes]
      exact List.mem_append_left _ hn
    · rw [List.mem_singleton.1 he, hlast] at hmoved
      cases hmoved

/-! ### Whole operations -/

theorem addition (h : app.Sound H) (hs : s.Rooted root) (refusing : Refusing H t)
    (course : Addition app s t r app') : Throughout Sound H t ∧ app'.Sound (held H t) := by
  have hs' : s ∈ (app.adopt s).services := List.mem_append_right _ List.mem_cons_self
  have hall : s.nodes = s.nodes ++ [] := (List.append_nil _).symm
  cases course with
  | refused => exact ⟨throughout_nil, h⟩
  | rolledBack welcome nodes withdrawals =>
    exact h.rollBack hs welcome.2 nodes withdrawals (refusing_append.1 refusing).1
  | unpublished welcome =>
    obtain ⟨hexports, hlive⟩ := h.exporting hs welcome.2 (refusing_append.1 refusing).1
    refine append hexports (hlive.unmoved ?_ ?_)
    · simp [Call.object?]
    · simpa using hlive
  | @unannounced done rest n e welcome nodes =>
    obtain ⟨hexports, hlive⟩ := h.exporting hs welcome.2 (refusing_append.1 refusing).1
    have hsplit : s.nodes = (done ++ [n]) ++ rest := by simpa using nodes
    have hend := hlive.enter hs' hsplit
    refine append hexports (hend.unmoved (fun f hf => ?_) fun f hf => ?_)
    · simp only [List.mem_cons, List.mem_append, List.not_mem_nil, or_false] at hf
      rcases hf with rfl | hf | rfl
      · rfl
      · exact object?_of_mem_announcing hf
      · rfl
    · simp only [List.mem_cons, List.mem_append, List.not_mem_nil, or_false] at hf
      rcases hf with rfl | hf | rfl
      · exact hlive
      · exact hlive.announcing hs' nodes hf
      · exact hend
  | completed welcome =>
    obtain ⟨hexports, hlive⟩ := h.exporting hs welcome.2 (refusing_append.1 refusing).1
    refine append hexports ((hlive.enter hs' hall).unmoved (fun f hf => ?_) fun f hf => ?_)
    · rcases List.mem_cons.1 hf with rfl | hf
      · rfl
      · exact object?_of_mem_announcing hf
    · rcases List.mem_cons.1 hf with rfl | hf
      · exact hlive
      · exact hlive.announcing hs' hall hf

/-- What is true of the service that a removal finds. -/
theorem found (h : app.Sound H) (found : app.service? p = some s) :
    ∃ root, s.Rooted root ∧ s.path = p ∧
      ∀ q ∈ (app.disown p).directory.keys, q.owner = s.path → q ∈ s.nodes.map Node.path := by
  obtain ⟨hs, hpath⟩ := mem_of_service? found
  obtain ⟨root, -, hrooted⟩ := h.tidy.rooted s hs
  exact ⟨root, hrooted, hpath, fun q hq howner => h.own q hq s hs howner.symm⟩

/-- All nodes of a service are retracted; then it shows nowhere. -/
theorem takeOut (h : app.Sound H) (found : app.service? p = some s) :
    Throughout Sound H ((app.disown p).retracting s.nodes.reverse) ∧
      ((app.disown p).leave s.nodes.reverse).Sound H ∧
      ∀ n ∈ s.nodes, ¬ ((app.disown p).leave s.nodes.reverse).Shows n.path := by
  obtain ⟨root, hrooted, hpath, hown⟩ := h.found found
  have hall : s.nodes.reverse = s.nodes.reverse ++ [] := (List.append_nil _).symm
  refine ⟨throughout_of_unmoved ?_ ?_, h.disown.leave hrooted hown hall, fun n hn => ?_⟩
  · exact fun f hf => Exchange.moved?_of_object?_eq_none (object?_of_mem_retracting hf)
  · exact fun f hf => h.disown.retracting hrooted hown hall hf
  · rintro (hkey | hlive)
    · refine (mem_keys_leave.1 hkey).2 ?_
      rw [List.map_reverse, List.mem_reverse]
      exact List.mem_map_of_mem hn
    · obtain ⟨m, hm, hmn⟩ := List.mem_map.1 hlive
      refine (h.tidy.mem_nodes_disown.1 hm).2 ?_
      rw [hmn, hrooted.owner_eq hn, hpath]

theorem removal (h : app.Sound H) (course : Removal app s t r app') :
    Throughout Sound H t ∧ app'.Sound (held H t) := by
  cases course with
  | absent => exact ⟨throughout_nil, h⟩
  | @interrupted live done rest n interfaces e found nodes listed =>
    obtain ⟨root, hrooted, -, hown⟩ := h.found found
    have hsplit : live.nodes.reverse = (done ++ [n]) ++ rest := by simpa using nodes
    have hend := h.disown.leave hrooted hown hsplit
    refine hend.unmoved (fun f hf => ?_) fun f hf => ?_
    · rcases List.mem_append.1 hf with hf | hf
      · exact object?_of_mem_retracting hf
      · rw [List.mem_singleton.1 hf]
        rfl
    · rcases List.mem_append.1 hf with hf | hf
      · exact h.disown.retracting hrooted hown nodes hf
      · rw [List.mem_singleton.1 hf]
        exact hend
  | stuck found nodes =>
    obtain ⟨hretractions, hgone, hshows⟩ := h.takeOut found
    refine append hretractions ?_
    rw [held_retracting]
    exact hgone.withdrawing hshows nodes rfl rfl
  | withdrawn found =>
    obtain ⟨hretractions, hgone, hshows⟩ := h.takeOut found
    refine append hretractions ?_
    rw [held_retracting]
    exact hgone.withdrawing hshows (List.append_nil _).symm rfl
      (Exchange.moved?_of_object?_eq_none rfl)

/-- **Every act preserves the invariant**, at every moment and to its end. -/
theorem performs (h : app.Sound H) (made : a.Uses fun s => ∃ root, s.Made root)
    (refusing : Refusing H t) (performs : app.Performs a.operation t r app') :
    Throughout Sound H t ∧ app'.Sound (held H t) := by
  cases performs_course performs with
  | quiet same calls =>
    obtain ⟨hthroughout, hend⟩ := h.still (fun e he => (calls e he).1) fun e he q k hmoved hk =>
      absurd (Exchange.object?_of_moved? hmoved) ((calls e he).2.object?_ne hk)
    exact ⟨hthroughout, hend.sameViews same⟩
  | add course =>
    obtain ⟨root, hmade⟩ := made
    exact h.addition hmade.rooted refusing course
  | remove course => exact h.removal course
  | update found =>
    have hshowing := h.showing found
    refine hshowing.unmoved ?_ ?_
    · simp [Call.object?]
    · simpa using hshowing

theorem fresh (id : AppId) (profile : Profile) (H : Held) :
    (Application.fresh id profile).Sound H where
  tidy := .fresh id profile
  live _ hn := absurd hn List.not_mem_nil
  entry _ _ hfind := nomatch hfind
  own _ hq := absurd hq List.not_mem_nil
  parent _ hq := absurd hq List.not_mem_nil
  owner _ hq := absurd hq List.not_mem_nil

/-- **Every history preserves the invariant.** -/
theorem history (h : app.Sound H) (past : app.History acts t app')
    (made : ∀ a ∈ acts, a.Uses fun s => ∃ root, s.Made root) (refusing : Refusing H t) :
    Throughout Sound H t ∧ app'.Sound (held H t) := by
  refine past.induct (I := fun t app' => Refusing H t → Throughout Sound H t ∧
    app'.Sound (held H t)) ?_ made (fun _ => ⟨throughout_nil, h⟩) refusing
  intro past app a t r app' made hpast hperforms refusing
  obtain ⟨hrefusing, hrest⟩ := refusing_append.1 refusing
  obtain ⟨hthroughout, hsound⟩ := hpast hrefusing
  exact append hthroughout (hsound.performs made hrest hperforms)

end Sound

/-! ### What it means for those who look -/

/-- **Nothing that is shown dangles.**  Each entry of the directory is that of an object which the
bus holds, under the kind that has the interface of the entry; so is each live node; and the paths
that entries give as those of their service or characteristic have entries themselves. -/
structure NoDangling (app : Application) (H : Held) : Prop where
  listed : ∀ q interfaces, app.directory.find? q = some interfaces →
    ∃ k : ObjectKind, interfaces.keys = [k.interface] ∧ (q, k) ∈ H
  live : ∀ n ∈ app.nodes, n.pair ∈ H
  characteristics : ∀ q interfaces, app.directory.find? q = some interfaces →
    ∀ properties ∈ interfaces.find? Interface.characteristic,
      ∃ p ∈ app.directory.keys, properties.find? "Service" = some (.path p)
  descriptors : ∀ q interfaces, app.directory.find? q = some interfaces →
    ∀ properties ∈ interfaces.find? Interface.descriptor,
      ∃ p ∈ app.directory.keys, properties.find? "Characteristic" = some (.path p)

theorem Sound.noDangling (h : app.Sound H) : app.NoDangling H where
  listed q interfaces hfind := by
    obtain ⟨k, hfits, hmem⟩ := h.entry q interfaces hfind
    exact ⟨k, hfits.keys, hmem⟩
  live := h.live
  characteristics q interfaces hfind properties hproperties := by
    obtain ⟨k, hfits, -⟩ := h.entry q interfaces hfind
    obtain ⟨rfl, hservice⟩ := hfits.service properties hproperties
    have hkey := FinMap.mem_keys_of_find? hfind
    exact ⟨q.parent, h.parent q hkey (by rw [hfits.kind]; decide), hservice⟩
  descriptors q interfaces hfind properties hproperties := by
    obtain ⟨k, hfits, -⟩ := h.entry q interfaces hfind
    obtain ⟨rfl, hcharacteristic⟩ := hfits.characteristic properties hproperties
    have hkey := FinMap.mem_keys_of_find? hfind
    exact ⟨q.parent, h.parent q hkey (by rw [hfits.kind]; decide), hcharacteristic⟩

/-- **Nothing dangles, at any moment of any history**: before each call is carried out, after it,
and between the operations.  The bus holds what it likes to begin with and fails what it likes; it
only refuses to export what it holds. -/
theorem nothing_dangles {id : AppId} {profile : Profile}
    (past : (fresh id profile).History acts t app)
    (made : ∀ a ∈ acts, a.Uses fun s => ∃ root, s.Made root) (refusing : Refusing H t) :
    Throughout NoDangling H t ∧ app.NoDangling (held H t) := by
  obtain ⟨hthroughout, hsound⟩ := (Sound.fresh id profile H).history past made refusing
  refine ⟨fun before e after hsplit => ?_, hsound.noDangling⟩
  obtain ⟨hbefore, hafter⟩ := hthroughout before e after hsplit
  exact ⟨hbefore.noDangling, hafter.noDangling⟩

/-- A service is removed half, and then neither removed nor added any more. -/
def halfRemoval : List Act :=
  [.run, .add Sample.battery, .remove Sample.battery, .remove Sample.battery, .add Sample.battery]

def halfRemovalAnswers : List Answer :=
  List.replicate 10 (.ok ()) ++ [Sample.failure, Sample.failure]

/-- The hypotheses are satisfiable: nothing dangles in the course of the acts above, which leave a
service and a characteristic listed. -/
theorem nothing_dangles_halfRemoval :
    let played := play Sample.answering (fresh 0 Sample.profile) halfRemoval halfRemovalAnswers
    played.2.1.directory.keys = [Sample.batteryPath, Sample.levelPath] ∧
      Throughout NoDangling ∅ played.1 ∧ played.2.1.NoDangling (held ∅ played.1) := by
  refine ⟨by decide, nothing_dangles (history_play _ _ halfRemoval _) ?_ (by decide)⟩
  have hbattery : ∃ root, Sample.battery.Made root := ⟨_, Sample.made_battery⟩
  intro a ha
  simp only [halfRemoval, List.mem_cons, List.not_mem_nil, or_false] at ha
  rcases ha with rfl | rfl | rfl | rfl | rfl
  · trivial
  all_goals exact hbattery

end Application
end GattServer
