/-
# The object manager

An application exports its object manager when it starts to run, and it does so once.  Until then
it waits: nothing is live or announced, services are refused without a call, and running can be
tried again (`Application.Waits`).  The calls it makes meanwhile are preliminary: they are about
its name, its object manager and its advertisement (`Call.Preliminary`).

The export that succeeds comes directly after the name was granted.  From then on every further
run is refused without a call, even if the run that exported the object manager ended with an
error of the call after it (`Application.manager_first_and_once`).
-/

import GattServer.Proofs.History

namespace GattServer

/-- A call that exports an object manager. -/
def Call.isManagerExport : Call → Bool
  | .exportObject _ object => object.kind = .objectManager
  | _ => false

/-- A call that can be made before the object manager is exported. -/
def Call.Preliminary : Call → Prop
  | .requestName _ | .registerAdvertisement _ _ | .unregisterAdvertisement _ _ => True
  | .exportObject _ object => object.kind.isNode = false
  | .withdrawObject _ kind => kind.isNode = false
  | .publishTree _ _ | .announce _ _ _ | .retract _ _ _ | .updateValue _ _ => False

theorem Call.isManagerExport_of_node {c : Call} {n : Node} (h : c.object? = some n.pair) :
    c.isManagerExport = false := by
  cases c with
  | exportObject path object =>
    have hkind : object.kind = n.kind := congrArg Prod.snd (Option.some.inj h)
    have hnode := n.isNode_kind
    refine decide_eq_false fun hmanager => ?_
    rw [← hkind, hmanager] at hnode
    cases hnode
  | _ => rfl

theorem Call.isManagerExport_of_object?_eq_none {c : Call} (h : c.object? = none) :
    c.isManagerExport = false := by
  cases c with
  | exportObject => cases h
  | _ => rfl

namespace Exchange

/-- An object manager is exported. -/
def Launches {σ : Type} (e : Exchange σ) : Prop := e.call.isManagerExport = true ∧ e.Succeeded

instance {σ : Type} (e : Exchange σ) : Decidable e.Launches :=
  inferInstanceAs (Decidable (e.call.isManagerExport = true ∧ e.Succeeded))

theorem not_launches_of_call {σ : Type} {e : Exchange σ} (h : e.call.isManagerExport = false) :
    ¬ e.Launches := fun hlaunch => by
  have hcall := hlaunch.1
  rw [h] at hcall
  cases hcall

/-- Nothing is live or announced yet, and an application makes a preliminary call, by which it does
not export its object manager. -/
structure Early (e : Exchange Application) : Prop where
  services : e.state.services = []
  directory : e.state.directory = ∅
  preliminary : e.call.Preliminary
  quiet : ¬ e.Launches

end Exchange

namespace Application

variable {id : AppId} {profile : Profile} {app app' : Application} {a : Act} {acts : List Act}
  {s : Service} {t past : List (Exchange Application)} {e : Exchange Application} {r : Answer}

/-- The exchanges of a run that launches an application: the name is granted, the object manager
is exported, and the tree is published or not. -/
def launching (app : Application) (r : Answer) : List (Exchange Application) :=
  [⟨app, .requestName app.name, .ok ()⟩,
    ⟨app, .exportObject app.path (.objectManager app.id), .ok ()⟩,
    ⟨{ app with running := true }, .publishTree app.path app.tree, r⟩]

/-- **An application without an object manager.**  Nothing is live or announced, a service is
refused without a call, and running asks for the name and can succeed. -/
structure Waits (app : Application) : Prop where
  services : app.services = []
  directory : app.directory = ∅
  refuses : ∀ s, app.script (addService s) = .done (.error (.notRunning s.path), app)
  tries : ∃ next, app.script run = .call app (.requestName app.name) next
  launches : ∀ r, app.Performs run (app.launching r) r { app with running := true }

/-! ### Before it is exported -/

/-- Nothing is exported, live or announced. -/
structure Bare (app : Application) : Prop where
  idle : app.running = false
  services : app.services = []
  directory : app.directory = ∅

namespace Bare

theorem waits (bare : app.Bare) : app.Waits where
  services := bare.services
  directory := bare.directory
  refuses s := by
    rw [addService, script_bind, script_get, Script.done_bind]
    simp [bare.idle]
  tries := by
    rw [run, script_bind, script_get, Script.done_bind]
    simp [bare.idle]
  launches r := by
    rw [run, performs_get_bind, if_neg (by simp [bare.idle])]
    refine performs_ask_bind.2 (Or.inl ⟨_, rfl, performs_ask_bind.2 (Or.inl ⟨_, rfl, ?_⟩)⟩)
    rw [performs_modify_bind, performs_publishTree]
    exact ⟨rfl, rfl⟩

theorem service?_eq (bare : app.Bare) (path : ObjectPath) : app.service? path = none := by
  rw [service?, bare.services]
  rfl

theorem early (bare : app.Bare) (hstate : e.state = app) (hcall : e.call.Preliminary)
    (hquiet : ¬ e.Launches) : e.Early where
  services := hstate ▸ bare.services
  directory := hstate ▸ bare.directory
  preliminary := hcall
  quiet := hquiet

theorem early_of_call (bare : app.Bare) (hstate : e.state = app) (hcall : e.call.Preliminary)
    (plain : e.call.isManagerExport = false) : e.Early :=
  bare.early hstate hcall (Exchange.not_launches_of_call plain)

/-- **An application without an object manager** stays as it is while its calls are early, or it
launches. -/
theorem performs (bare : app.Bare) (h : app.Performs a.operation t r app') :
    (app'.Bare ∧ ∀ e ∈ t, e.Early) ∨
      t = app.launching r ∧ app' = { app with running := true } := by
  have silent : app.Bare ∧ ∀ e ∈ ([] : List (Exchange Application)), e.Early :=
    ⟨bare, fun e he => absurd he List.not_mem_nil⟩
  cases a with
  | run =>
    cases performs_run h with
    | again running => simp [bare.idle] at running
    | nameless =>
      exact Or.inl ⟨bare, List.forall_mem_singleton.2 (bare.early_of_call rfl trivial rfl)⟩
    | unexported =>
      exact Or.inl ⟨bare, List.forall_mem_cons.2 ⟨bare.early_of_call rfl trivial rfl,
        List.forall_mem_singleton.2 (bare.early rfl rfl fun hlaunch => nomatch hlaunch.2)⟩⟩
    | launched => exact Or.inr ⟨rfl, rfl⟩
  | create properties advertised =>
    obtain ⟨rfl, created, rfl⟩ := performs_create h
    exact Or.inl ⟨⟨bare.idle, bare.services, bare.directory⟩, silent.2⟩
  | add s =>
    cases performs_addService h with
    | refused => exact Or.inl silent
    | rolledBack welcome | unpublished welcome | unannounced welcome | completed welcome =>
      have running := welcome.1
      simp [bare.idle] at running
  | remove s =>
    cases performs_removeService h with
    | absent => exact Or.inl silent
    | interrupted found | stuck found | withdrawn found =>
      rw [bare.service?_eq] at found
      cases found
  | update path value =>
    rcases performs_updateValue h with ⟨-, rfl, -, rfl⟩ | ⟨services, hset, -, -⟩
    · exact Or.inl silent
    · rw [bare.services] at hset
      cases hset
  | start deviceName =>
    cases performs_startAdvertising h with
    | active => exact Or.inl silent
    | malformed => exact Or.inl silent
    | unexported =>
      exact Or.inl ⟨bare, List.forall_mem_singleton.2 (bare.early_of_call rfl rfl rfl)⟩
    | @exported device =>
      have bare' : Bare { app with advertisement := some ⟨advertisementPath, device⟩ } :=
        ⟨bare.idle, bare.services, bare.directory⟩
      exact Or.inl ⟨bare', List.forall_mem_cons.2 ⟨bare.early_of_call rfl rfl rfl,
        List.forall_mem_singleton.2 (bare'.early_of_call rfl trivial rfl)⟩⟩
  | stop =>
    cases performs_stopAdvertising h with
    | inactive => exact Or.inl silent
    | stopped =>
      have bare' : Bare { app with advertisement := none } :=
        ⟨bare.idle, bare.services, bare.directory⟩
      exact Or.inl ⟨bare', List.forall_mem_cons.2 ⟨bare'.early_of_call rfl trivial rfl,
        List.forall_mem_singleton.2 (bare'.early_of_call rfl rfl rfl)⟩⟩

end Bare

/-! ### Once it is exported -/

/-- An addition exports and withdraws nodes of what is added. -/
theorem Addition.object?_eq (course : Addition app s t r app') (he : e ∈ t) :
    e.call.object? = none ∨ ∃ n ∈ s.nodes, e.call.object? = some n.pair := by
  have exports {xs : List Node} (hxs : ∀ n ∈ xs, n ∈ s.nodes) (h : e ∈ app.exporting xs) :
      ∃ n ∈ s.nodes, e.call.object? = some n.pair := by
    obtain ⟨n, hn, rfl⟩ := mem_exporting h
    exact ⟨n, hxs n hn, n.object?_exported app.id⟩
  cases course with
  | refused => cases he
  | @rolledBack done rest n cause back welcome nodes withdrawals =>
    rw [nodes] at exports ⊢
    rcases List.mem_append.1 he with h | h
    · exact Or.inr (exports (fun m hm => List.mem_append_left _ hm) h)
    rcases List.mem_cons.1 h with rfl | h
    · exact Or.inr ⟨n, by simp, n.object?_exported app.id⟩
    · obtain ⟨-, m, hm, hcall⟩ := mem_of_question withdrawals h
      refine Or.inr ⟨m, List.mem_append_left _ (List.mem_reverse.1 hm), ?_⟩
      rw [hcall, m.object?_withdrawn]
  | unpublished =>
    rcases List.mem_append.1 he with h | h
    · exact Or.inr (exports (fun _ hn => hn) h)
    · rw [List.mem_singleton.1 h]
      exact Or.inl rfl
  | unannounced =>
    rcases List.mem_append.1 he with h | h
    · exact Or.inr (exports (fun _ hn => hn) h)
    rcases List.mem_cons.1 h with rfl | h
    · exact Or.inl rfl
    rcases List.mem_append.1 h with h | h
    · exact Or.inl (object?_of_mem_announcing h)
    · rw [List.mem_singleton.1 h]
      exact Or.inl rfl
  | completed =>
    rcases List.mem_append.1 he with h | h
    · exact Or.inr (exports (fun _ hn => hn) h)
    rcases List.mem_cons.1 h with rfl | h
    · exact Or.inl rfl
    · exact Or.inl (object?_of_mem_announcing h)

/-- A removal withdraws live nodes. -/
theorem Removal.object?_eq (course : Removal app s t r app') (he : e ∈ t) :
    e.call.object? = none ∨ ∃ n ∈ app.nodes, e.call.object? = some n.pair := by
  have live {v : Service} (found : app.service? s.path = some v) {n : Node}
      (hn : n ∈ v.nodes.reverse) : n ∈ app.nodes :=
    List.mem_flatMap.2 ⟨v, List.mem_of_find?_eq_some found, List.mem_reverse.1 hn⟩
  cases course with
  | absent => cases he
  | interrupted found =>
    rcases List.mem_append.1 he with h | h
    · exact Or.inl (object?_of_mem_retracting h)
    · rw [List.mem_singleton.1 h]
      exact Or.inl rfl
  | @stuck v done rest n cause found nodes =>
    have hlive := @live v found
    rw [nodes] at hlive
    rcases List.mem_append.1 he with h | h
    · exact Or.inl (object?_of_mem_retracting h)
    rcases List.mem_append.1 h with h | h
    · obtain ⟨m, hm, rfl⟩ := mem_withdrawing h
      exact Or.inr ⟨m, hlive (List.mem_append_left _ hm), m.object?_withdrawn⟩
    · rw [List.mem_singleton.1 h]
      exact Or.inr ⟨n, hlive (by simp), n.object?_withdrawn⟩
  | withdrawn found =>
    rcases List.mem_append.1 he with h | h
    · exact Or.inl (object?_of_mem_retracting h)
    rcases List.mem_append.1 h with h | h
    · obtain ⟨m, hm, rfl⟩ := mem_withdrawing h
      exact Or.inr ⟨m, live found hm, m.object?_withdrawn⟩
    · rw [List.mem_singleton.1 h]
      exact Or.inl rfl

theorem not_launches_of_object? {nodes : List Node}
    (h : e.call.object? = none ∨ ∃ n ∈ nodes, e.call.object? = some n.pair) : ¬ e.Launches := by
  rcases h with h | ⟨n, -, h⟩
  · exact Exchange.not_launches_of_call (Call.isManagerExport_of_object?_eq_none h)
  · exact Exchange.not_launches_of_call (Call.isManagerExport_of_node h)

/-- Only running exports an object manager. -/
theorem not_launches_of_ne_run (h : app.Performs a.operation t r app') (ha : a ≠ .run) :
    ∀ e ∈ t, ¬ e.Launches := by
  cases a with
  | run => exact absurd rfl ha
  | create properties advertised =>
    obtain ⟨rfl, -⟩ := performs_create h
    simp
  | add s => exact fun e he => not_launches_of_object? ((performs_addService h).object?_eq he)
  | remove s => exact fun e he => not_launches_of_object? ((performs_removeService h).object?_eq he)
  | update path value =>
    rcases performs_updateValue h with ⟨-, rfl, -, -⟩ | ⟨services, -, -, rfl⟩
    · simp
    · exact List.forall_mem_singleton.2 (Exchange.not_launches_of_call rfl)
  | start deviceName =>
    cases performs_startAdvertising h with
    | active | malformed => simp
    | unexported => exact List.forall_mem_singleton.2 (Exchange.not_launches_of_call rfl)
    | exported =>
      exact List.forall_mem_cons.2 ⟨Exchange.not_launches_of_call rfl,
        List.forall_mem_singleton.2 (Exchange.not_launches_of_call rfl)⟩
  | stop =>
    cases performs_stopAdvertising h with
    | inactive => simp
    | stopped =>
      exact List.forall_mem_cons.2 ⟨Exchange.not_launches_of_call rfl,
        List.forall_mem_singleton.2 (Exchange.not_launches_of_call rfl)⟩

/-- An application that runs goes on running. -/
theorem running_of_performs (running : app.running = true)
    (h : app.Performs a.operation t r app') : app'.running = true := by
  cases a with
  | run => cases performs_run h <;> first | exact running | rfl
  | create properties advertised =>
    obtain ⟨-, created, rfl⟩ := performs_create h
    exact running
  | add s => cases performs_addService h <;> exact running
  | remove s => cases performs_removeService h <;> exact running
  | update path value =>
    rcases performs_updateValue h with ⟨-, -, -, rfl⟩ | ⟨services, -, rfl, -⟩
    · exact running
    · exact running
  | start deviceName => cases performs_startAdvertising h <;> exact running
  | stop => cases performs_stopAdvertising h <;> exact running

/-- **An application that runs goes on running**, and exports no object manager. -/
theorem performs_running (running : app.running = true) (h : app.Performs a.operation t r app') :
    app'.running = true ∧ ∀ e ∈ t, ¬ e.Launches := by
  refine ⟨running_of_performs running h, ?_⟩
  by_cases ha : a = .run
  · subst ha
    cases performs_run h with
    | again => simp
    | nameless idle | unexported idle | launched idle => simp [running] at idle
  · exact not_launches_of_ne_run h ha

/-! ### First and once -/

/-- **The export of an object manager**, among the exchanges of an application.  It is at the path
of the application, directly after the name was granted; all exchanges before are early, and none
after exports an object manager again. -/
structure Leads (id : AppId) (profile : Profile) (before : List (Exchange Application))
    (e : Exchange Application) (after : List (Exchange Application)) : Prop where
  place : e.call = .exportObject profile.path (.objectManager id)
  named : ∃ earlier f, before = earlier ++ [f] ∧
    f.call = .requestName profile.settings.name ∧ f.Succeeded
  early : ∀ f ∈ before, f.Early
  once : ∀ f ∈ after, ¬ f.Launches

/-- An application waits for its object manager, or one exchange exported it. -/
inductive Stage (id : AppId) (profile : Profile) (past : List (Exchange Application))
    (app : Application) : Prop where
  | waiting (bare : app.Bare) (early : ∀ e ∈ past, e.Early)
  | launched {before after : List (Exchange Application)} {e : Exchange Application}
    (split : past = before ++ e :: after) (launch : e.Launches)
    (leads : Leads id profile before e after) (running : app.running = true)

theorem Stage.performs (stage : Stage app.id app.profile past app)
    (h : app.Performs a.operation t r app') : Stage app'.id app'.profile (past ++ t) app' := by
  rw [performs_id h, performs_profile h]
  cases stage with
  | waiting bare early =>
    rcases bare.performs h with ⟨bare', hearly⟩ | ⟨rfl, rfl⟩
    · exact .waiting bare' (List.forall_mem_append.2 ⟨early, hearly⟩)
    · have hname : (⟨app, .requestName app.name, .ok ()⟩ : Exchange Application).Early :=
        bare.early_of_call rfl trivial rfl
      exact .launched (List.append_assoc past [_] _).symm ⟨rfl, rfl⟩
        { place := rfl
          named := ⟨past, _, rfl, rfl, rfl⟩
          early := List.forall_mem_append.2 ⟨early, List.forall_mem_singleton.2 hname⟩
          once := List.forall_mem_singleton.2 (Exchange.not_launches_of_call rfl) } rfl
  | launched split launch leads running =>
    obtain ⟨running', hquiet⟩ := performs_running running h
    subst split
    exact .launched (List.append_assoc _ (_ :: _) _) launch
      { leads with once := List.forall_mem_append.2 ⟨leads.once, hquiet⟩ } running'

theorem stage_of_history (past : (fresh id profile).History acts t app) :
    Stage id profile t app := by
  have stage : Stage app.id app.profile t app :=
    past.induct (I := fun past app => Stage app.id app.profile past app) (P := fun _ => True)
      (fun _ stage h => stage.performs h) (fun _ _ => trivial)
      (.waiting ⟨rfl, rfl, rfl⟩ fun e he => absurd he List.not_mem_nil)
  rwa [past.id, past.profile] at stage

theorem script_run_of_running (running : app.running = true) :
    app.script run = .done (.error (.alreadyRunning app.name), app) := by
  rw [run, script_bind, script_get, Script.done_bind]
  simp [running]

/-- **The object manager comes first and only once**, whatever the bus answers.  Until its export
succeeds the application waits for it and makes early calls only.  An export that succeeds leads,
and from then on every further run is refused without a call. -/
theorem manager_first_and_once (past : (fresh id profile).History acts t app) :
    ((∀ e ∈ t, ¬ e.Launches) → app.Waits ∧ ∀ e ∈ t, e.Early) ∧
      ∀ before e after, t = before ++ e :: after → e.Launches →
        Leads id profile before e after ∧
          app.script run = .done (.error (.alreadyRunning app.name), app) := by
  cases stage_of_history past with
  | waiting bare early =>
    refine ⟨fun _ => ⟨bare.waits, early⟩, ?_⟩
    rintro before e after rfl launch
    exact absurd launch (early e (by simp)).quiet
  | launched split launch leads running =>
    subst split
    refine ⟨fun hnone => absurd launch (hnone _ (by simp)), ?_⟩
    intro before e after hsplit hlaunch
    rcases split_cases hsplit with ⟨rfl, rfl, rfl⟩ | ⟨-, hlater⟩ | ⟨hearlier, -⟩
    · exact ⟨leads, script_run_of_running running⟩
    · exact absurd hlaunch (leads.once _ hlater)
    · exact absurd hlaunch (leads.early _ hearlier).quiet

/-- A service is added too early, the name is denied, the object manager is denied after advertising
has started, the tree cannot be published, and the application is run once more. -/
def troubledLaunch : List Act :=
  [.add Sample.battery, .run, .start "hci0", .run, .run, .add Sample.battery, .run]

def troubledLaunchAnswers : List Answer :=
  [Sample.failure, .ok (), .ok (), .ok (), Sample.failure, .ok (), .ok (), Sample.failure]

/-- The hypothesis is satisfiable: the seventh of the fifteen exchanges exports the object manager,
although the run it belongs to fails. -/
theorem manager_first_and_once_troubled :
    let told := play Sample.answering (fresh 0 Sample.profile) troubledLaunch troubledLaunchAnswers
    ∃ before e after, told.1 = before ++ e :: after ∧ before.length = 6 ∧ after.length = 8 ∧
      e.Launches ∧ Leads 0 Sample.profile before e after ∧
      told.2.1.script run = .done (.error (.alreadyRunning told.2.1.name), told.2.1) := by
  intro told
  have launch : (told.1.get ⟨6, by decide⟩).Launches := by decide
  have split : told.1 = told.1.take 6 ++ told.1.get ⟨6, by decide⟩ :: told.1.drop 7 := by rfl
  have first := manager_first_and_once (history_play Sample.answering (fresh 0 Sample.profile)
    troubledLaunch troubledLaunchAnswers)
  obtain ⟨leads, refused⟩ := first.2 _ _ _ split launch
  exact ⟨_, _, _, split, by decide, by decide, launch, leads, refused⟩

end Application
end GattServer
