/-
# The courses of publication

Each operation that publishes something can take one of a few courses, and this module lists them:
the calls in order, the state at each call, the answers as far as they decide the course, and the
state that is left.

| operation | courses |
| --- | --- |
| run | again, nameless, unexported, launched |
| add a service | refused, rolled back, unpublished, unannounced, completed |
| remove a service | absent, interrupted, stuck, withdrawn |
| update a value | unknown, updated |

`Application.performs_run`, `Application.performs_addService`, `Application.performs_removeService`
and `Application.performs_updateValue` say that there are no others.  Nothing else needs to look
into the operations.
-/

import GattServer.Application.Publication
import GattServer.Proofs.Trace

namespace GattServer

/-! ### The calls about a node -/

namespace Node

/-- The call that exports a node for an application. -/
def exported (app : AppId) (n : Node) : Call := .exportObject n.path (n.object app)

/-- The call that withdraws a node. -/
def withdrawn (n : Node) : Call := .withdrawObject n.path n.kind

/-- The call that announces a node. -/
def announced (manager : ObjectPath) (n : Node) : Call := .announce manager n.path n.interfaces

/-- The call that retracts a node that was announced with some interfaces. -/
def retracted (manager : ObjectPath) (n : Node) (interfaces : InterfaceMap) : Call :=
  .retract manager n.path interfaces.keys

end Node

theorem FinMap.erase_of_find?_eq_none {κ ν : Type} [DecidableEq κ] {m : FinMap κ ν} {k : κ}
    (h : m.find? k = none) : m.erase k = m := by
  have hk : ∀ e ∈ m.entries, e.1 ≠ k := by
    intro e he hek
    have hmem : k ∈ m.keys := hek ▸ List.mem_map_of_mem (f := Prod.fst) he
    rw [FinMap.mem_keys_iff, h] at hmem
    cases hmem
  cases m
  simpa [erase, filterKeys] using hk

namespace Application

variable {app app' : Application} {s : Service} {n : Node} {nodes : List Node}
  {t : List (Exchange Application)} {r : Answer}

/-! ### Steps on the state -/

/-- The application with nodes entered into its directory, one after the other. -/
def enter (app : Application) (nodes : List Node) : Application :=
  { app with directory := nodes.foldl (fun d n => d.insert n.path n.interfaces) app.directory }

/-- The application with nodes taken out of its directory. -/
def leave (app : Application) (nodes : List Node) : Application :=
  { app with directory := nodes.foldl (fun d n => d.erase n.path) app.directory }

/-- The application with one more live service. -/
def adopt (app : Application) (s : Service) : Application :=
  { app with services := app.services ++ [s] }

/-- The application without the first live service of a path. -/
def disown (app : Application) (path : ObjectPath) : Application :=
  { app with services := app.services.eraseP fun s => s.path = path }

theorem enter_cons (app : Application) (n : Node) (ns : List Node) :
    app.enter (n :: ns) = (app.enter [n]).enter ns := rfl

theorem leave_cons (app : Application) (n : Node) (ns : List Node) :
    app.leave (n :: ns) = (app.leave [n]).leave ns := rfl

theorem enter_append (app : Application) (xs ys : List Node) :
    app.enter (xs ++ ys) = (app.enter xs).enter ys := by
  simp [enter]

theorem leave_append (app : Application) (xs ys : List Node) :
    app.leave (xs ++ ys) = (app.leave xs).leave ys := by
  simp [leave]

/-! ### The calls of a loop -/

/-- Nodes are exported in a state. -/
def exporting (app : Application) (nodes : List Node) : List (Exchange Application) :=
  nodes.map fun n => ⟨app, n.exported app.id, .ok ()⟩

/-- Nodes are withdrawn in a state. -/
def withdrawing (app : Application) (nodes : List Node) : List (Exchange Application) :=
  nodes.map fun n => ⟨app, n.withdrawn, .ok ()⟩

/-- Nodes enter the directory, and each is announced. -/
def announcing (app : Application) : List Node → List (Exchange Application)
  | [] => []
  | n :: ns =>
    ⟨app.enter [n], n.announced app.path, .ok ()⟩ :: (app.enter [n]).announcing ns

/-- Nodes leave the directory, and those that were there are retracted. -/
def retracting (app : Application) : List Node → List (Exchange Application)
  | [] => []
  | n :: ns =>
    match app.directory.find? n.path with
    | none => app.retracting ns
    | some interfaces =>
      ⟨app.leave [n], n.retracted app.path interfaces, .ok ()⟩ :: (app.leave [n]).retracting ns

theorem performs_announce :
    app.Performs (announce n) t r app' ↔
      t = [⟨app.enter [n], n.announced app.path, r⟩] ∧ app' = app.enter [n] := by
  rw [announce, performs_modify_bind, performs_get_bind, performs_ask]
  rfl

theorem performs_retract :
    app.Performs (retract n) t r app' ↔
      (app.directory.find? n.path = none ∧ t = [] ∧ r = .ok () ∧ app' = app) ∨
        ∃ interfaces, app.directory.find? n.path = some interfaces ∧
          t = [⟨app.leave [n], n.retracted app.path interfaces, r⟩] ∧ app' = app.leave [n] := by
  rw [retract, performs_get_bind]
  cases h : app.directory.find? n.path with
  | none => simp
  | some interfaces =>
    rw [performs_set_bind, performs_ask]
    simp only [Option.some.injEq, exists_eq_left', reduceCtorEq, false_and, false_or]
    rfl

theorem passes_announce (h : Passes announce app nodes t app') :
    t = app.announcing nodes ∧ app' = app.enter nodes := by
  induction nodes generalizing app t with
  | nil =>
    cases h
    exact ⟨rfl, rfl⟩
  | cons n ns ih =>
    obtain _ | ⟨first, rest⟩ := h
    obtain ⟨rfl, rfl⟩ := performs_announce.1 first
    obtain ⟨rfl, rfl⟩ := ih rest
    exact ⟨rfl, rfl⟩

theorem leave_of_find?_eq_none (h : app.directory.find? n.path = none) : app.leave [n] = app := by
  simp [leave, FinMap.erase_of_find?_eq_none h]

theorem passes_retract (h : Passes retract app nodes t app') :
    t = app.retracting nodes ∧ app' = app.leave nodes := by
  induction nodes generalizing app t with
  | nil =>
    cases h
    exact ⟨rfl, rfl⟩
  | cons n ns ih =>
    obtain _ | ⟨first, rest⟩ := h
    rw [retracting, leave_cons app n ns]
    rcases performs_retract.1 first with ⟨hd, rfl, -, rfl⟩ | ⟨interfaces, hd, rfl, rfl⟩
    · obtain ⟨rfl, rfl⟩ := ih rest
      simp [hd, leave_of_find?_eq_none hd]
    · obtain ⟨rfl, rfl⟩ := ih rest
      simp [hd]

theorem passes_withdraw
    (h : Passes (fun node : Node => ask (.withdrawObject node.path node.kind)) app nodes t app') :
    t = app.withdrawing nodes ∧ app' = app := by
  induction nodes generalizing app t with
  | nil =>
    cases h
    exact ⟨rfl, rfl⟩
  | cons n ns ih =>
    obtain _ | ⟨first, rest⟩ := h
    obtain ⟨rfl, rfl⟩ := performs_ask.1 first
    obtain ⟨rfl, rfl⟩ := ih rest
    exact ⟨rfl, rfl⟩

/-- Withdrawals whose failures are passed over leave no trace but their calls. -/
theorem performs_forM_withdraw
    (h : app.Performs (nodes.forM fun node => withdraw node.path node.kind) t r app') :
    t.map Exchange.question = nodes.map (fun n => (app, n.withdrawn)) ∧ r = .ok () ∧
      app' = app := by
  induction nodes generalizing t with
  | nil =>
    obtain ⟨rfl, rfl, rfl⟩ := performs_pure.1 h
    exact ⟨rfl, rfl, rfl⟩
  | cons n ns ih =>
    replace h : app.Performs
      (withdraw n.path n.kind >>= fun _ => ns.forM fun node => withdraw node.path node.kind)
        t r app' := h
    rcases performs_bind.1 h with ⟨_, t₁, t₂, mid, rfl, h₁, h₂⟩ | ⟨e, h, -⟩
    · obtain ⟨answer, rfl, -, rfl⟩ := performs_withdraw.1 h₁
      obtain ⟨ht, rfl, rfl⟩ := ih h₂
      exact ⟨by rw [List.map_append, ht]; rfl, rfl, rfl⟩
    · obtain ⟨-, -, h, -⟩ := performs_withdraw.1 h
      cases h

/-- Nodes are exported one after the other, or up to the first one that is refused; then those
exported before are withdrawn, newest first. -/
theorem performs_exportFrom {before : List Node}
    (h : app.Performs (exportFrom before nodes) t r app') :
    app' = app ∧ ((r = .ok () ∧ t = app.exporting nodes) ∨
      ∃ done n rest e back, nodes = done ++ n :: rest ∧ r = .error e ∧
        t = app.exporting done ++ ⟨app, n.exported app.id, .error e⟩ :: back ∧
        back.map Exchange.question =
          (done.reverse ++ before).map fun m => (app, m.withdrawn)) := by
  induction nodes generalizing before t with
  | nil =>
    obtain ⟨rfl, rfl, rfl⟩ := performs_pure.1 h
    exact ⟨rfl, Or.inl ⟨rfl, rfl⟩⟩
  | cons n ns ih =>
    rw [exportFrom, performs_get_bind, performs_attempt_bind] at h
    obtain ⟨_ | _, rest, rfl, h⟩ := h
    · rcases performs_bind.1 h with ⟨_, t₁, t₂, mid, rfl, h₁, h₂⟩ | ⟨e, h, -⟩
      · obtain ⟨hback, -, rfl⟩ := performs_forM_withdraw h₁
        obtain ⟨rfl, rfl, rfl⟩ := performs_throw.1 h₂
        exact ⟨rfl, Or.inr ⟨[], n, ns, _, t₁, rfl, rfl, by rw [List.append_nil]; rfl, hback⟩⟩
      · obtain ⟨-, h, -⟩ := performs_forM_withdraw h
        cases h
    · obtain ⟨rfl, ⟨rfl, rfl⟩ | ⟨done, m, rest', e, back, rfl, rfl, rfl, hback⟩⟩ := ih h
      · exact ⟨rfl, Or.inl ⟨rfl, rfl⟩⟩
      · refine ⟨rfl, Or.inr ⟨n :: done, m, rest', e, back, rfl, rfl, rfl, ?_⟩⟩
        rw [hback, List.reverse_cons, List.append_assoc]
        rfl

/-! ### Running -/

/-- **The courses of running.** -/
inductive Launch (app : Application) :
    List (Exchange Application) → Answer → Application → Prop where
  /-- The object manager has been exported before. -/
  | again (running : app.running = true) : Launch app [] (.error (.alreadyRunning app.name)) app
  /-- The name is not granted. -/
  | nameless {e : Error} (idle : app.running = false) :
    Launch app [⟨app, .requestName app.name, .error e⟩] (.error e) app
  /-- The object manager cannot be exported. -/
  | unexported {e : Error} (idle : app.running = false) :
    Launch app
      [⟨app, .requestName app.name, .ok ()⟩,
        ⟨app, .exportObject app.path (.objectManager app.id), .error e⟩]
      (.error e) app
  /-- The application runs, and the tree is published or not. -/
  | launched {r : Answer} (idle : app.running = false) :
    Launch app
      [⟨app, .requestName app.name, .ok ()⟩,
        ⟨app, .exportObject app.path (.objectManager app.id), .ok ()⟩,
        ⟨{ app with running := true }, .publishTree app.path app.tree, r⟩]
      r { app with running := true }

/-- **Running takes one of these courses.** -/
theorem performs_run (h : app.Performs run t r app') : Launch app t r app' := by
  rw [run, performs_get_bind] at h
  split_ifs at h with hrunning
  · obtain ⟨rfl, rfl, rfl⟩ := performs_throw.1 h
    exact .again hrunning
  have idle : app.running = false := by simpa using hrunning
  rcases performs_ask_bind.1 h with ⟨u, rfl, hexport⟩ | ⟨e, rfl, rfl, rfl⟩
  · rcases performs_ask_bind.1 hexport with ⟨v, rfl, hlast⟩ | ⟨e, rfl, rfl, rfl⟩
    · rw [performs_modify_bind] at hlast
      obtain ⟨rfl, rfl⟩ := performs_publishTree.1 hlast
      exact .launched idle
    · exact .unexported idle
  · exact .nameless idle

/-! ### Adding a service -/

/-- A service can be added: the application is running and has no live service of its path. -/
def Welcomes (app : Application) (s : Service) : Prop :=
  app.running = true ∧ app.service? s.path = none

/-- **The courses of adding a service.**  They differ in how far they get. -/
inductive Addition (app : Application) (s : Service) :
    List (Exchange Application) → Answer → Application → Prop where
  /-- No call is made. -/
  | refused {e : Error} (unwelcome : ¬ app.Welcomes s) : Addition app s [] (.error e) app
  /-- An export fails, and the exports before it are withdrawn. -/
  | rolledBack {done rest : List Node} {n : Node} {e : Error} {back : List (Exchange Application)}
    (welcome : app.Welcomes s) (nodes : s.nodes = done ++ n :: rest)
    (withdrawals : back.map Exchange.question = done.reverse.map fun m => (app, m.withdrawn)) :
    Addition app s (app.exporting done ++ ⟨app, n.exported app.id, .error e⟩ :: back) (.error e) app
  /-- The tree cannot be published. -/
  | unpublished {e : Error} (welcome : app.Welcomes s) :
    Addition app s
      (app.exporting s.nodes ++
        [⟨app.adopt s, .publishTree app.path (app.adopt s).tree, .error e⟩])
      (.error e) (app.adopt s)
  /-- A node cannot be announced. -/
  | unannounced {done rest : List Node} {n : Node} {e : Error} (welcome : app.Welcomes s)
    (nodes : s.nodes = done ++ n :: rest) :
    Addition app s
      (app.exporting s.nodes ++ ⟨app.adopt s, .publishTree app.path (app.adopt s).tree, .ok ()⟩ ::
        ((app.adopt s).announcing done ++
          [⟨(app.adopt s).enter (done ++ [n]), n.announced app.path, .error e⟩]))
      (.error e) ((app.adopt s).enter (done ++ [n]))
  /-- Every call succeeds. -/
  | completed (welcome : app.Welcomes s) :
    Addition app s
      (app.exporting s.nodes ++ ⟨app.adopt s, .publishTree app.path (app.adopt s).tree, .ok ()⟩ ::
        (app.adopt s).announcing s.nodes)
      (.ok ()) ((app.adopt s).enter s.nodes)

/-- **Adding a service takes one of these courses.** -/
theorem performs_addService (h : app.Performs (addService s) t r app') :
    Addition app s t r app' := by
  rw [addService, performs_get_bind] at h
  split_ifs at h with hrunning hlive
  · obtain ⟨rfl, rfl, rfl⟩ := performs_throw.1 h
    exact .refused fun hw => by simp [hw.1] at hrunning
  · obtain ⟨rfl, rfl, rfl⟩ := performs_throw.1 h
    exact .refused fun hw => by simp [hw.2] at hlive
  have welcome : app.Welcomes s := by
    constructor
    · simpa using hrunning
    · simpa using hlive
  rcases performs_bind.1 h with ⟨_, t₁, t₂, mid, rfl, h₁, h₂⟩ | ⟨e, hfail, rfl⟩
  · obtain ⟨rfl, ⟨-, rfl⟩ | ⟨_, _, _, _, _, _, he, _⟩⟩ := performs_exportFrom h₁
    swap
    · cases he
    rw [performs_modify_bind] at h₂
    replace h₂ : (mid.adopt s).Performs (publishTree >>= fun _ => s.nodes.forM announce)
      t₂ r app' := h₂
    rcases performs_bind.1 h₂ with ⟨_, u₁, u₂, mid', rfl, hp, hl⟩ | ⟨e, hp, rfl⟩
    · obtain ⟨rfl, rfl⟩ := performs_publishTree.1 hp
      rcases performs_forM hl with ⟨rfl, hpass⟩ |
        ⟨done, n, rest, mid, v₁, v₂, e, hnodes, rfl, rfl, hdone, hlast⟩
      · obtain ⟨rfl, rfl⟩ := passes_announce hpass
        exact .completed welcome
      · obtain ⟨rfl, rfl⟩ := passes_announce hdone
        obtain ⟨rfl, rfl⟩ := performs_announce.1 hlast
        rw [← enter_append]
        exact .unannounced welcome hnodes
    · obtain ⟨rfl, rfl⟩ := performs_publishTree.1 hp
      exact .unpublished welcome
  · obtain ⟨rfl, ⟨he, -⟩ | ⟨done, n, rest, e, back, hnodes, he, rfl, hback⟩⟩ :=
      performs_exportFrom hfail
    · cases he
    · cases he
      rw [List.append_nil] at hback
      exact .rolledBack welcome hnodes hback

/-! ### Removing a service -/

/-- **The courses of removing a service.**  What is removed is the live service of the path. -/
inductive Removal (app : Application) (s : Service) :
    List (Exchange Application) → Answer → Application → Prop where
  /-- No service of the path is live. -/
  | absent (h : app.service? s.path = none) : Removal app s [] (.ok ()) app
  /-- A node cannot be retracted. -/
  | interrupted {live : Service} {done rest : List Node} {n : Node} {interfaces : InterfaceMap}
    {e : Error} (found : app.service? s.path = some live)
    (nodes : live.nodes.reverse = done ++ n :: rest)
    (listed : ((app.disown s.path).leave done).directory.find? n.path = some interfaces) :
    Removal app s
      ((app.disown s.path).retracting done ++
        [⟨(app.disown s.path).leave (done ++ [n]), n.retracted app.path interfaces, .error e⟩])
      (.error e) ((app.disown s.path).leave (done ++ [n]))
  /-- A node cannot be withdrawn. -/
  | stuck {live : Service} {done rest : List Node} {n : Node} {e : Error}
    (found : app.service? s.path = some live) (nodes : live.nodes.reverse = done ++ n :: rest) :
    Removal app s
      ((app.disown s.path).retracting live.nodes.reverse ++
        (((app.disown s.path).leave live.nodes.reverse).withdrawing done ++
          [⟨(app.disown s.path).leave live.nodes.reverse, n.withdrawn, .error e⟩]))
      (.error e) ((app.disown s.path).leave live.nodes.reverse)
  /-- All nodes are retracted and withdrawn, and the tree is published or not. -/
  | withdrawn {live : Service} {r : Answer} (found : app.service? s.path = some live) :
    Removal app s
      ((app.disown s.path).retracting live.nodes.reverse ++
        (((app.disown s.path).leave live.nodes.reverse).withdrawing live.nodes.reverse ++
          [⟨(app.disown s.path).leave live.nodes.reverse,
            .publishTree app.path (app.disown s.path).tree, r⟩]))
      r ((app.disown s.path).leave live.nodes.reverse)

/-- **Removing a service takes one of these courses.** -/
theorem performs_removeService (h : app.Performs (removeService s) t r app') :
    Removal app s t r app' := by
  rw [removeService, performs_get_bind] at h
  cases found : app.service? s.path with
  | none =>
    rw [found] at h
    obtain ⟨rfl, rfl, rfl⟩ := performs_pure.1 h
    exact .absent found
  | some live =>
    rw [found] at h
    replace h := performs_set_bind.1 h
    rcases performs_bind.1 h with ⟨_, t₁, t₂, mid, rfl, h₁, h₂⟩ | ⟨e, hfail, rfl⟩
    · rcases performs_forM h₁ with ⟨-, hpass⟩ | ⟨_, _, _, _, _, _, _, _, _, he, _⟩
      swap
      · cases he
      obtain ⟨rfl, rfl⟩ := passes_retract hpass
      rcases performs_bind.1 h₂ with ⟨_, u₁, u₂, mid', rfl, hw, hp⟩ | ⟨e, hw, rfl⟩
      · rcases performs_forM hw with ⟨-, hpass⟩ | ⟨_, _, _, _, _, _, _, _, _, he, _⟩
        swap
        · cases he
        obtain ⟨rfl, rfl⟩ := passes_withdraw hpass
        obtain ⟨rfl, rfl⟩ := performs_publishTree.1 hp
        exact .withdrawn found
      · rcases performs_forM hw with
          ⟨he, -⟩ | ⟨done, n, rest, mid, v₁, v₂, e, hnodes, rfl, he, hdone, hlast⟩
        · cases he
        · cases he
          obtain ⟨rfl, rfl⟩ := passes_withdraw hdone
          obtain ⟨rfl, rfl⟩ := performs_ask.1 hlast
          exact .stuck found hnodes
    · rcases performs_forM hfail with
        ⟨he, -⟩ | ⟨done, n, rest, mid, v₁, v₂, e, hnodes, rfl, he, hdone, hlast⟩
      · cases he
      · cases he
        obtain ⟨rfl, rfl⟩ := passes_retract hdone
        rcases performs_retract.1 hlast with ⟨-, -, he, -⟩ | ⟨interfaces, listed, rfl, rfl⟩
        · cases he
        · rw [← leave_append]
          exact .interrupted found hnodes listed

/-! ### Updating a value -/

/-- The application with another value to show at the characteristic of a path, in the tree and in
the directory. -/
def showing (app : Application) (path : ObjectPath) (value : List UInt8)
    (services : List Service) : Application :=
  { app with
    services
    directory := app.directory.setProperty path Interface.characteristic "Value" (.bytes value) }

/-- **An update makes one call, if the characteristic is live.** -/
theorem performs_updateValue {path : ObjectPath} {value : List UInt8}
    (h : app.Performs (updateValue path value) t r app') :
    (setValueIn? path value app.services = none ∧ t = [] ∧ r = .error (.noCharacteristic path) ∧
        app' = app) ∨
      ∃ services, setValueIn? path value app.services = some services ∧
        app' = app.showing path value services ∧ t = [⟨app', .updateValue path value, r⟩] := by
  rw [updateValue, performs_get_bind] at h
  cases found : setValueIn? path value app.services with
  | none =>
    rw [found] at h
    obtain ⟨rfl, rfl, rfl⟩ := performs_throw.1 h
    exact Or.inl ⟨rfl, rfl, rfl, rfl⟩
  | some services =>
    rw [found] at h
    replace h := performs_set_bind.1 h
    obtain ⟨rfl, rfl⟩ := performs_ask.1 h
    exact Or.inr ⟨services, rfl, rfl, rfl⟩

end Application
end GattServer
