/-
# The views of an application agree

What an application has to offer can be seen in four places: on the bus, in the list of its live
services, in its directory, and in the description of its tree.  They change at different moments
of an operation, and exports are even taken back.  After every operation they agree
(`Application.views_agree`), provided the bus does not fail where an operation has no way back: in
publishing the tree, announcing, retracting and withdrawing.

The description names nodes relative to the application.  Such a name, put behind the path of the
application and a slash, is the written form of the path of the node (`stem_childName`).
-/

import GattServer.Proofs.History
import GattServer.Proofs.Steps

namespace GattServer

/-! ### Names of children -/

namespace ObjectPath

theorem stem_cons (s : Segment) (ss : List Segment) :
    stem ⟨s :: ss⟩ = "/" ++ s.text ++ stem ⟨ss⟩ := by
  simp [stem]

theorem stem_append (ps qs : List Segment) : stem ⟨ps ++ qs⟩ = stem ⟨ps⟩ ++ stem ⟨qs⟩ := by
  simp [stem]

/-- What a description takes for the front of a path: its written form, or nothing for the root. -/
theorem front_eq (p : ObjectPath) :
    (if p.text = "/" then [] else p.text.toList) = p.stem.toList := by
  obtain ⟨_ | ⟨s, ss⟩⟩ := p
  · rfl
  · have htext : text ⟨s :: ss⟩ = stem ⟨s :: ss⟩ := rfl
    have hne : stem ⟨s :: ss⟩ ≠ "/" := by
      intro h
      have hlist := congrArg String.toList h
      rw [stem_cons, String.toList_append, String.toList_append] at hlist
      simp [s.ne_nil] at hlist
    rw [htext, if_neg hne]

end ObjectPath

namespace Introspection

/-- **A name in the description, put behind the root, is the path it stands for.** -/
theorem stem_childName {root q : ObjectPath} (h : q.IsBelow root) :
    root.stem ++ "/" ++ childName root.text q.text = q.text := by
  obtain ⟨⟨rest, hrest⟩, hne⟩ := h
  obtain ⟨qs⟩ := q
  obtain rfl : root.segments ++ rest = qs := hrest
  obtain _ | ⟨s, ss⟩ := rest
  · simp at hne
  have htext : ObjectPath.text ⟨root.segments ++ s :: ss⟩ =
      root.stem ++ "/" ++ (s.text ++ ObjectPath.stem ⟨ss⟩) := by
    rw [ObjectPath.text, if_neg (by simp), ObjectPath.stem_append, ObjectPath.stem_cons]
    simp only [String.append_assoc]
  have hbehind : behind? root.text (root.stem ++ "/" ++ (s.text ++ ObjectPath.stem ⟨ss⟩)) =
      some (s.text ++ ObjectPath.stem ⟨ss⟩).toList := by
    have hlist : (root.stem ++ "/" ++ (s.text ++ ObjectPath.stem ⟨ss⟩)).toList =
        (root.stem.toList ++ ['/']) ++ (s.text ++ ObjectPath.stem ⟨ss⟩).toList := by
      simp
    simp only [behind?, root.front_eq, hlist]
    rw [if_pos (List.prefix_append _ _), List.drop_left]
  rw [htext, childName, hbehind]
  simp

theorem mem_insertName {name other : String} {names : List String} :
    other ∈ insertName name names ↔ other = name ∨ other ∈ names := by
  induction names with
  | nil => simp [insertName]
  | cons first rest ih =>
    rw [insertName]
    split_ifs with hsame
    · simp [hsame]
    · simp
    · rw [List.mem_cons, ih, List.mem_cons]
      tauto

theorem mem_children_ofTree {root name : String} {paths : List String} :
    name ∈ (ofTree root paths).children ↔ ∃ path ∈ paths, name = childName root path := by
  rw [ofTree]
  induction paths with
  | nil => simp
  | cons path paths ih =>
    rw [List.map_cons, List.foldr_cons, mem_insertName, ih]
    simp

end Introspection

/-! ### Dependable calls -/

/-- A call has no way to fail, unless it claims a name, exports an object, changes a value, or is
about an advertisement being registered. -/
def Exchange.Dependable {σ : Type} (e : Exchange σ) : Prop :=
  match e.call with
  | .withdrawObject _ _ | .publishTree _ _ | .announce _ _ _ | .retract _ _ _ => e.Succeeded
  | _ => True

instance {σ : Type} : (e : Exchange σ) → Decidable e.Dependable
  | ⟨_, .withdrawObject _ _, answer⟩ | ⟨_, .publishTree _ _, answer⟩
  | ⟨_, .announce _ _ _, answer⟩ | ⟨_, .retract _ _ _, answer⟩ =>
    inferInstanceAs (Decidable (answer = .ok ()))
  | ⟨_, .requestName _, _⟩ | ⟨_, .exportObject _ _, _⟩ | ⟨_, .updateValue _ _, _⟩
  | ⟨_, .registerAdvertisement _ _, _⟩ | ⟨_, .unregisterAdvertisement _ _, _⟩ => .isTrue trivial

namespace Application

variable {root : ObjectPath} {app app' : Application} {s : Service} {a : Act} {acts : List Act}
  {nodes : List Node} {t back : List (Exchange Application)} {r : Answer} {H : Held}

/-- Withdrawals that are dependable all succeed. -/
theorem withdrawing_of_question
    (h : back.map Exchange.question = nodes.map fun n => (app, n.withdrawn))
    (dependable : ∀ e ∈ back, e.Dependable) : back = app.withdrawing nodes := by
  refine eq_withdrawing h fun e he => ?_
  obtain ⟨-, n, -, hcall⟩ := mem_of_question h he
  have hdependable := dependable e he
  rwa [Exchange.Dependable, hcall] at hdependable

/-! ### The invariant -/

/-- **The four views show the same nodes.**  The bus holds the live nodes, each as an object of its
kind; the directory lists their paths with what the nodes show now; and the names in the
description, put behind the path of the application, are their paths. -/
structure Agrees (app : Application) (H : Held) : Prop where
  exported : ∀ q k, k.isNode = true → ((q, k) ∈ H ↔ (q, k) ∈ app.nodes.map Node.pair)
  listed : ∀ q, q ∈ app.directory.keys ↔ q ∈ app.nodes.map Node.path
  described : ∀ text, text ∈ app.tree.children.map (app.path.stem ++ "/" ++ ·) ↔
    text ∈ app.nodes.map fun n => n.path.text
  shown : ∀ n ∈ app.nodes, app.directory.find? n.path = some n.interfaces

/-- What makes the views agree: besides what they show, that the live services are well-formed,
lie below the application, and differ. -/
structure Consistent (app : Application) (H : Held) : Prop where
  tidy : app.Tidy (· = app.path)
  exported : ∀ q k, k.isNode = true → ((q, k) ∈ H ↔ (q, k) ∈ app.nodes.map Node.pair)
  listed : ∀ q, (app.directory.find? q).isSome → q ∈ app.nodes.map Node.path
  shown : ∀ n ∈ app.nodes, app.directory.find? n.path = some n.interfaces

theorem Tidy.name_eq (h : app.Tidy (· = app.path)) {n : Node} (hn : n ∈ app.nodes) :
    app.path.stem ++ "/" ++ Introspection.childName app.path.text n.path.text = n.path.text := by
  obtain ⟨s, hs, hns⟩ := mem_nodes.1 hn
  obtain ⟨_, rfl, hrooted⟩ := h.rooted s hs
  exact Introspection.stem_childName (hrooted.isBelow hns)

/-- **The description names the live nodes.** -/
theorem Tidy.described (h : app.Tidy (· = app.path)) (text : String) :
    text ∈ app.tree.children.map (app.path.stem ++ "/" ++ ·) ↔
      text ∈ app.nodes.map fun n => n.path.text := by
  simp only [List.mem_map, tree, Introspection.mem_children_ofTree]
  constructor
  · rintro ⟨_, ⟨_, ⟨n, hn, rfl⟩, rfl⟩, rfl⟩
    exact ⟨n, hn, (h.name_eq hn).symm⟩
  · rintro ⟨n, hn, rfl⟩
    exact ⟨_, ⟨_, ⟨n, hn, rfl⟩, rfl⟩, h.name_eq hn⟩

theorem Consistent.agrees (h : app.Consistent H) : app.Agrees H where
  exported := h.exported
  listed q := by
    constructor
    · exact fun hq => h.listed q (FinMap.mem_keys_iff.1 hq)
    · intro hq
      obtain ⟨n, hn, rfl⟩ := List.mem_map.1 hq
      exact FinMap.mem_keys_of_find? (h.shown n hn)
  described := h.tidy.described
  shown := h.shown

/-! ### What each operation preserves -/

theorem consistent_fresh (id : AppId) (profile : Profile) : (fresh id profile).Consistent ∅ where
  tidy := .fresh id profile
  exported := by simp [fresh, nodes]
  listed := by simp [fresh]
  shown := by simp [fresh, nodes]

theorem Consistent.sameViews (h : app.Consistent H) (same : app.SameViews app')
    {H' : Held} (held : ∀ q k, k.isNode = true → ((q, k) ∈ H' ↔ (q, k) ∈ H)) :
    app'.Consistent H' := by
  have hpath : app'.path = app.path := congrArg Profile.path same.profile
  refine ⟨?_, fun q k hk => ?_, ?_, ?_⟩
  · rw [hpath]
    exact h.tidy.of_services same.services
  · rw [held q k hk, same.nodes]
    exact h.exported q k hk
  · rw [same.directory, same.nodes]
    exact h.listed
  · rw [same.directory, same.nodes]
    exact h.shown

/-- No node of a service that is not live is held. -/
theorem Consistent.notMem (h : app.Consistent H) (hs : s.Rooted app.path)
    (hnew : app.service? s.path = none) {n : Node} (hn : n ∈ s.nodes) : n.pair ∉ H := by
  intro hmem
  obtain ⟨m, hm, hpair⟩ := List.mem_map.1 ((h.exported _ _ n.isNode_kind).1 hmem)
  exact h.tidy.path_ne hs hnew hm hn (congrArg Prod.fst hpair)

/-- **Exports that are taken back leave what the bus held.** -/
theorem Consistent.rollBack (h : app.Consistent H) (hs : s.Rooted app.path)
    (hnew : app.service? s.path = none) {done rest : List Node} {n : Node} {e : Error}
    (hnodes : s.nodes = done ++ n :: rest) :
    held H (app.exporting done ++ ⟨app, n.exported app.id, .error e⟩ ::
      app.withdrawing done.reverse) = H := by
  rw [held_append, held_cons, Exchange.after_of_moved?_eq_none (Exchange.moved?_of_failed rfl)]
  exact held_exporting_withdrawing fun m hm =>
    h.notMem hs hnew (hnodes ▸ List.mem_append_left _ hm)

/-- **A service that is exported, adopted and entered shows in all views.** -/
theorem Consistent.adopt (h : app.Consistent H) (hs : s.Rooted app.path)
    (hnew : app.service? s.path = none) {H' : Held}
    (held : ∀ x, x ∈ H' ↔ x ∈ H ∨ x ∈ s.nodes.map Node.pair) :
    ((app.adopt s).enter s.nodes).Consistent H' := by
  have hnodes : ((app.adopt s).enter s.nodes).nodes = app.nodes ++ s.nodes := nodes_adopt
  refine ⟨(h.tidy.adopt rfl hs hnew).enter, fun q k hk => ?_, fun q hq => ?_, fun n hn => ?_⟩
  · rw [held, h.exported q k hk, hnodes, List.map_append, List.mem_append]
  · rw [hnodes, List.map_append, List.mem_append]
    by_cases hqs : q ∈ s.nodes.map Node.path
    · exact Or.inr hqs
    · rw [find?_enter_of_notMem hqs] at hq
      exact Or.inl (h.listed q hq)
  · rw [hnodes, List.mem_append] at hn
    rcases hn with hn | hn
    · have hout : n.path ∉ s.nodes.map Node.path := by
        intro hmem
        obtain ⟨m, hm, hpath⟩ := List.mem_map.1 hmem
        exact h.tidy.path_ne hs hnew hn hm hpath.symm
      rw [find?_enter_of_notMem hout]
      exact h.shown n hn
    · exact find?_enter_of_mem hs.nodup_paths hn

/-- **A service that is disowned, taken out and withdrawn shows in no view.** -/
theorem Consistent.disown (h : app.Consistent H) (hs : s ∈ app.services) {H' : Held}
    (held : ∀ x, x ∈ H' ↔ x ∈ H ∧ x ∉ s.nodes.map Node.pair) :
    ((app.disown s.path).leave s.nodes.reverse).Consistent H' := by
  obtain ⟨root, -, hrooted⟩ := h.tidy.rooted s hs
  have hnodes : ∀ n, n ∈ ((app.disown s.path).leave s.nodes.reverse).nodes ↔
      n ∈ app.nodes ∧ n.path.owner ≠ s.path := fun n => h.tidy.mem_nodes_disown
  have hleft : ∀ n ∈ app.nodes, n.path.owner ≠ s.path ↔ n.path ∉ s.nodes.map Node.path := by
    intro n hn
    constructor
    · intro hne hmem
      obtain ⟨m, hm, hpath⟩ := List.mem_map.1 hmem
      exact hne (hpath ▸ hrooted.owner_eq hm)
    · intro hnot howner
      exact hnot (List.mem_map_of_mem (h.tidy.mem_nodes_of_owner hn hs howner))
  refine ⟨h.tidy.disown.leave, fun q k hk => ?_, fun q hq => ?_, fun n hn => ?_⟩
  · rw [held, h.exported q k hk]
    constructor
    · rintro ⟨hmem, hnot⟩
      obtain ⟨n, hn, hpair⟩ := List.mem_map.1 hmem
      refine List.mem_map.2 ⟨n, (hnodes n).2 ⟨hn, fun howner => hnot ?_⟩, hpair⟩
      exact hpair ▸ List.mem_map_of_mem (h.tidy.mem_nodes_of_owner hn hs howner)
    · intro hmem
      obtain ⟨n, hn, hpair⟩ := List.mem_map.1 hmem
      obtain ⟨hlive, hne⟩ := (hnodes n).1 hn
      refine ⟨List.mem_map.2 ⟨n, hlive, hpair⟩, fun hmem => ?_⟩
      obtain ⟨m, hm, hmpair⟩ := List.mem_map.1 hmem
      have hpath : m.path = n.path := congrArg Prod.fst (hmpair.trans hpair.symm)
      exact hne (hpath ▸ hrooted.owner_eq hm)
  · rw [find?_leave, List.map_reverse] at hq
    split_ifs at hq with hout
    · cases hq
    rw [List.mem_reverse] at hout
    obtain ⟨n, hn, rfl⟩ := List.mem_map.1 (h.listed q hq)
    exact List.mem_map_of_mem ((hnodes n).2 ⟨hn, (hleft n hn).2 hout⟩)
  · obtain ⟨hlive, hne⟩ := (hnodes n).1 hn
    rw [find?_leave, List.map_reverse, if_neg (by simpa using (hleft n hlive).1 hne)]
    exact h.shown n hlive

/-- **Another value shows in the tree and in the directory alike.** -/
theorem Consistent.showing (h : app.Consistent H) {path : ObjectPath} {value : List UInt8}
    {services : List Service} (hset : setValueIn? path value app.services = some services) :
    (app.showing path value services).Consistent H := by
  refine ⟨h.tidy.showing hset, fun q k hk => ?_, fun q hq => ?_, fun n hn => ?_⟩
  · rw [h.exported q k hk, h.tidy.pairs_showing hset]
  · rw [h.tidy.paths_showing hset]
    rw [find?_showing] at hq
    split_ifs at hq
    · exact h.listed q (by simpa using hq)
    · exact h.listed q hq
  · have hface := List.mem_map_of_mem (f := Node.face) hn
    rw [h.tidy.nodes_showing hset, List.map_map] at hface
    obtain ⟨m, hm, hmface⟩ := List.mem_map.1 hface
    have hpath : m.path = n.path := by
      have := congrArg Node.Face.path hmface
      rwa [Function.comp_apply, Node.Face.path_withValue] at this
    have hinterfaces : (m.face.withValue path value).interfaces = n.interfaces :=
      congrArg Node.Face.interfaces hmface
    rw [Node.Face.interfaces_withValue] at hinterfaces
    rw [find?_showing, ← hpath, h.shown m hm, ← hinterfaces]
    show (if m.path = path then _ else _) = some (if m.path = path then _ else _)
    split_ifs <;> rfl

theorem Consistent.addition (h : app.Consistent H) (hs : s.Rooted app.path)
    (dependable : ∀ e ∈ t, e.Dependable) (course : Addition app s t r app') :
    app'.Consistent (held H t) := by
  cases course with
  | refused => exact h
  | @rolledBack done rest n e back welcome nodes withdrawals =>
    obtain rfl := withdrawing_of_question withdrawals fun e he => dependable e (by simp [he])
    rw [h.rollBack hs welcome.2 nodes]
    exact h
  | @unpublished e =>
    have hfailed : Exchange.Dependable ⟨app.adopt s, .publishTree app.path (app.adopt s).tree,
      .error e⟩ := dependable _ (by simp)
    cases hfailed
  | @unannounced done rest n e =>
    have hfailed : Exchange.Dependable ⟨(app.adopt s).enter (done ++ [n]),
      n.announced app.path, .error e⟩ := dependable _ (by simp)
    cases hfailed
  | completed welcome =>
    refine h.adopt hs welcome.2 fun x => ?_
    rw [held_append, held_cons, held_announcing]
    exact mem_held_exporting

theorem Consistent.removal (h : app.Consistent H) (dependable : ∀ e ∈ t, e.Dependable)
    (course : Removal app s t r app') : app'.Consistent (held H t) := by
  cases course with
  | absent => exact h
  | @interrupted live done rest n interfaces e =>
    have hfailed : Exchange.Dependable ⟨(app.disown s.path).leave (done ++ [n]),
      n.retracted app.path interfaces, .error e⟩ := dependable _ (by simp)
    cases hfailed
  | @stuck live done rest n e =>
    have hfailed : Exchange.Dependable ⟨(app.disown s.path).leave live.nodes.reverse,
      n.withdrawn, .error e⟩ := dependable _ (by simp)
    cases hfailed
  | @withdrawn live r found =>
    obtain ⟨hlive, hpath⟩ := mem_of_service? found
    rw [← hpath]
    refine h.disown hlive fun x => ?_
    rw [held_append, held_retracting, held_append]
    refine mem_held_withdrawing.trans ?_
    rw [List.map_reverse, List.mem_reverse]

/-- **Every act preserves consistency.** -/
theorem Consistent.performs (h : app.Consistent H) (own : a.Uses (Service.Made app.path))
    (dependable : ∀ e ∈ t, e.Dependable) (performs : app.Performs a.operation t r app') :
    app'.Consistent (held H t) := by
  cases performs_course performs with
  | quiet same calls =>
    exact h.sameViews same fun q k hk => mem_held_of_aside (fun e he => (calls e he).2) hk
  | add course => exact h.addition (Service.Made.rooted own) dependable course
  | remove course => exact h.removal dependable course
  | update found => exact h.showing found

/-- **The views of an application agree after every operation**, in any order and whatever becomes
of them, as long as the calls that an operation has no answer to do not fail.  The services are
those that come about below the application, built up and copied at will. -/
theorem views_agree {id : AppId} {profile : Profile} (past : (fresh id profile).History acts t app)
    (own : ∀ a ∈ acts, a.Uses (Service.Made profile.path)) (dependable : ∀ e ∈ t, e.Dependable) :
    app.Agrees (held ∅ t) := by
  have hconsistent : (∀ e ∈ t, e.Dependable) →
      app.profile = profile ∧ app.Consistent (held ∅ t) := by
    refine past.induct (I := fun t app => (∀ e ∈ t, e.Dependable) →
      app.profile = profile ∧ app.Consistent (held ∅ t)) ?_ own
      fun _ => ⟨rfl, consistent_fresh id profile⟩
    intro past app a t r app' own hpast hfirst dependable
    obtain ⟨hprofile, hconsistent⟩ := hpast fun e he => dependable e (List.mem_append_left _ he)
    have hpath : app.path = profile.path := congrArg Profile.path hprofile
    refine ⟨(performs_profile hfirst).trans hprofile, ?_⟩
    rw [held_append]
    exact hconsistent.performs (hpath ▸ own)
      (fun e he => dependable e (List.mem_append_right _ he)) hfirst
  exact (hconsistent dependable).2.agrees

/-- A service is added in vain, as its second node cannot be exported, and then added again; an
update that the bus does not pass on shows all the same. -/
def sampleActs : List Act :=
  [.run, .add Sample.battery, .add Sample.battery, .update Sample.levelPath [7]]

def sampleAnswers : List Answer :=
  [.ok (), .ok (), .ok ()] ++ [.ok (), Sample.failure, .ok ()] ++ List.replicate 7 (.ok ()) ++
    [Sample.failure]

/-- The hypotheses are satisfiable: the views agree after the acts above, on three nodes. -/
theorem views_agree_sample :
    let played := play Sample.answering (fresh 0 Sample.profile) sampleActs sampleAnswers
    played.2.1.nodes.length = 3 ∧ played.2.1.Agrees (held ∅ played.1) := by
  refine ⟨by decide, views_agree (history_play _ _ sampleActs _) ?_ (by decide)⟩
  intro a ha
  simp only [sampleActs, List.mem_cons, List.not_mem_nil, or_false] at ha
  rcases ha with rfl | rfl | rfl | rfl
  · trivial
  · exact Sample.made_battery
  · exact Sample.made_battery
  · trivial

end Application
end GattServer
