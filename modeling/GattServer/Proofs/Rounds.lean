/-
# Rounds of advertising

What an application does about its advertisement goes in rounds, whatever the bus answers and
whatever else the application does in the meantime:

| round | calls |
| --- | --- |
| refused | the export, which fails |
| closed | the export, the registration; and at the next stop the end of both |

The last round may still be open after the registration.  A round is opened by a start, for the
device that is named there, and it stays open if the registration fails; the next stop closes it,
even if neither the registration can be ended nor the export.  An advertisement is active exactly
while a round is open (`Application.advertising_in_rounds`).

A history is told by episodes here (`Application.Undergoes`), so that a call can be traced back to
the act that made it.
-/

import GattServer.Proofs.History

namespace GattServer

/-! ### Episodes -/

/-- An act with what became of it. -/
structure Episode where
  /-- The act. -/
  act : Act
  /-- Its calls, each with the state it was made in and the answer it got. -/
  exchanges : List (Exchange Application)
  /-- What it ended with. -/
  answer : Answer
  /-- The application afterwards. -/
  after : Application

namespace Application

variable {β : Type} {app app' : Application} {a : Act} {acts : List Act} {es : List Episode}
  {t : List (Exchange Application)} {r : Answer}

/-- An application goes through episodes one after the other. -/
inductive Undergoes : Application → List Episode → Application → Prop where
  | nil {app : Application} : Undergoes app [] app
  | cons {app app' : Application} {e : Episode} {es : List Episode}
    (first : app.Performs e.act.operation e.exchanges e.answer e.after)
    (rest : Undergoes e.after es app') : Undergoes app (e :: es) app'

/-- Has acts carried out on a bus, and tells the episodes. -/
def recount (bus : Bus β) : Application → List Act → β → List Episode × Application
  | app, [], _ => ([], app)
  | app, a :: acts, b =>
    let first := (app.script a.operation).record bus b
    let rest := recount bus first.2.1.2 acts first.2.2
    (⟨a, first.1, first.2.1.1, first.2.1.2⟩ :: rest.1, rest.2)

theorem undergoes_recount (bus : Bus β) (app : Application) (acts : List Act) (b : β) :
    app.Undergoes (recount bus app acts b).1 (recount bus app acts b).2 := by
  induction acts generalizing app b with
  | nil => exact .nil
  | cons a acts ih => exact .cons (performs_record bus app a.operation b) (ih _ _)

end Application

/-! ### Rounds -/

/-- A call that exports, withdraws, registers or unregisters an advertisement. -/
def Call.isAdvertising : Call → Bool
  | .exportObject _ object => object.kind = .advertisement
  | .withdrawObject _ kind => kind = .advertisement
  | .registerAdvertisement _ _ | .unregisterAdvertisement _ _ => true
  | _ => false

/-- The calls about an advertisement, with their answers. -/
def advertisingCalls (t : List (Exchange Application)) : List (Call × Answer) :=
  (t.filter (·.call.isAdvertising)).map fun e => (e.call, e.answer)

/-- A round that has been opened. -/
structure Opening where
  /-- The device it is for. -/
  device : ObjectPath
  /-- What is advertised. -/
  offer : AdvertisementProperties
  /-- The answer to the registration. -/
  registered : Answer

/-- A round that is over. -/
inductive Round where
  /-- The advertisement could not be exported. -/
  | refused (offer : AdvertisementProperties) (cause : Error)
  /-- The advertisement was given up, with the answers to the end of its registration and to its
  withdrawal. -/
  | closed (opening : Opening) (unregistered withdrawn : Answer)

/-- The call that exports an advertisement. -/
def exportOf (offer : AdvertisementProperties) : Call :=
  .exportObject advertisementPath (.advertisement ⟨advertisementPath, offer⟩)

/-- What is active while a round is open. -/
def Opening.active (o : Opening) : ActiveAdvertisement := ⟨advertisementPath, o.device⟩

/-- The calls that open a round. -/
def Opening.calls (o : Opening) : List (Call × Answer) :=
  [(exportOf o.offer, .ok ()), (.registerAdvertisement o.device advertisementPath, o.registered)]

/-- The calls of a round. -/
def Round.calls : Round → List (Call × Answer)
  | .refused offer cause => [(exportOf offer, .error cause)]
  | .closed o unregistered withdrawn =>
    o.calls ++ [(.unregisterAdvertisement o.device advertisementPath, unregistered),
      (.withdrawObject advertisementPath .advertisement, withdrawn)]

namespace Episode

/-- What an episode does about the advertisement: its calls with their answers, and whether the
advertisement is active at each of them, and afterwards. -/
structure Advertises (e : Episode) (calls : List (Call × Answer)) (states : List Bool)
    (active : Bool) : Prop where
  calls : e.exchanges.map (fun x => (x.call, x.answer)) = calls
  states : e.exchanges.map (·.state.isAdvertising) = states
  after : e.after.isAdvertising = active

/-- Nothing is done about the advertisement, which is active all along or is not.  Stopping is not
nothing while it is active. -/
structure Steady (e : Episode) (active : Bool) : Prop where
  act : active = true → e.act ≠ .stop
  calls : ∀ x ∈ e.exchanges, x.call.isAdvertising = false
  states : ∀ x ∈ e.exchanges, x.state.isAdvertising = active
  after : e.after.isAdvertising = active

/-- A start that cannot export its advertisement. -/
def Refused (e : Episode) (offer : AdvertisementProperties) (cause : Error) : Prop :=
  (∃ name device, e.act = .start name ∧
    ObjectPath.ofText? (deviceStem ++ name) = .ok device) ∧
  e.Advertises [(exportOf offer, .error cause)] [false] false ∧ e.answer = .error cause

/-- A start that opens a round for the device it names, whether it can be registered or not. -/
def Opens (e : Episode) (o : Opening) : Prop :=
  (∃ name, e.act = .start name ∧ ObjectPath.ofText? (deviceStem ++ name) = .ok o.device) ∧
  e.Advertises o.calls [false, true] true ∧ e.answer = o.registered

/-- A stop that closes a round, whatever it is answered. -/
def Closes (e : Episode) (o : Opening) (unregistered withdrawn : Answer) : Prop :=
  e.act = .stop ∧
  e.Advertises [(.unregisterAdvertisement o.device advertisementPath, unregistered),
    (.withdrawObject advertisementPath .advertisement, withdrawn)] [false, false] false ∧
  e.answer = unregistered

end Episode

/-- **Episodes go in rounds.**  At first a round may be open, and in the end one may be. -/
inductive Rounds : Option Opening → List Episode → List Round → Option Opening → Prop where
  | nil {o : Option Opening} : Rounds o [] [] o
  /-- Nothing is done about the advertisement. -/
  | aside {o last : Option Opening} {e : Episode} {es : List Episode} {rounds : List Round}
    (h : e.Steady o.isSome) (rest : Rounds o es rounds last) : Rounds o (e :: es) rounds last
  /-- A round is over at once. -/
  | refused {last : Option Opening} {offer : AdvertisementProperties} {cause : Error}
    {e : Episode} {es : List Episode} {rounds : List Round} (h : e.Refused offer cause)
    (rest : Rounds none es rounds last) :
    Rounds none (e :: es) (.refused offer cause :: rounds) last
  /-- A round is opened. -/
  | opened {last : Option Opening} {o : Opening} {e : Episode} {es : List Episode}
    {rounds : List Round} (h : e.Opens o) (rest : Rounds (some o) es rounds last) :
    Rounds none (e :: es) rounds last
  /-- The round that is open is closed. -/
  | closed {last : Option Opening} {o : Opening} {unregistered withdrawn : Answer} {e : Episode}
    {es : List Episode} {rounds : List Round} (h : e.Closes o unregistered withdrawn)
    (rest : Rounds none es rounds last) :
    Rounds (some o) (e :: es) (.closed o unregistered withdrawn :: rounds) last

/-! ### The calls of rounds -/

section Calls

variable {t u : List (Exchange Application)} {expected : List (Call × Answer)}

theorem advertisingCalls_append :
    advertisingCalls (t ++ u) = advertisingCalls t ++ advertisingCalls u := by
  simp [advertisingCalls]

theorem advertisingCalls_eq_nil (h : ∀ x ∈ t, x.call.isAdvertising = false) :
    advertisingCalls t = [] := by
  rw [advertisingCalls, List.map_eq_nil_iff, List.filter_eq_nil_iff]
  simpa using h

theorem advertisingCalls_of_map (h : t.map (fun x => (x.call, x.answer)) = expected)
    (all : ∀ c ∈ expected, c.1.isAdvertising = true) : advertisingCalls t = expected := by
  subst h
  have hall : ∀ x ∈ t, x.call.isAdvertising = true := fun x hx =>
    all _ (List.mem_map_of_mem (f := fun x => (x.call, x.answer)) hx)
  rw [advertisingCalls, List.filter_eq_self.2 hall]

/-- **The calls of episodes are those of their rounds**, one round after the other. -/
theorem Rounds.calls {o last : Option Opening} {es : List Episode} {rounds : List Round}
    (h : Rounds o es rounds last) :
    o.toList.flatMap Opening.calls ++ advertisingCalls (es.flatMap Episode.exchanges) =
      rounds.flatMap Round.calls ++ last.toList.flatMap Opening.calls := by
  induction h with
  | nil => exact List.append_nil _
  | aside h rest ih =>
    rwa [List.flatMap_cons, advertisingCalls_append, advertisingCalls_eq_nil h.calls]
  | @refused last offer cause e es rounds h rest ih =>
    have hcalls := advertisingCalls_of_map h.2.1.calls (by simp [exportOf, Call.isAdvertising,
      Object.kind])
    rw [List.flatMap_cons, List.flatMap_cons, advertisingCalls_append, hcalls,
      List.append_assoc _ _ (List.flatMap _ _), ← ih]
    rfl
  | @opened last o e es rounds h rest ih =>
    have hcalls := advertisingCalls_of_map h.2.1.calls (by simp [Opening.calls, exportOf,
      Call.isAdvertising, Object.kind])
    rw [← ih, List.flatMap_cons, advertisingCalls_append, hcalls]
    simp
  | @closed last o unregistered withdrawn e es rounds h rest ih =>
    have hcalls := advertisingCalls_of_map h.2.1.calls (by simp [Call.isAdvertising])
    rw [List.flatMap_cons, List.flatMap_cons, advertisingCalls_append, hcalls, List.append_assoc,
      ← ih]
    simp [Round.calls]

end Calls

namespace Application

variable {β : Type} {app app' : Application} {a : Act} {acts : List Act} {es : List Episode}
  {e : Episode} {o : Opening} {nodes : List Node} {t : List (Exchange Application)} {r : Answer}

/-! ### Acts that leave the advertisement alone -/

/-- The advertisement is as in a state at each of some exchanges, none of which is about it. -/
def Bystanders (app : Application) (t : List (Exchange Application)) : Prop :=
  ∀ e ∈ t, e.state.advertisement = app.advertisement ∧ e.call.isAdvertising = false

theorem Bystanders.append {u : List (Exchange Application)} (h : app.Bystanders t)
    (h' : app.Bystanders u) : app.Bystanders (t ++ u) :=
  List.forall_mem_append.2 ⟨h, h'⟩

theorem Bystanders.cons {x : Exchange Application}
    (h : x.state.advertisement = app.advertisement) (hcall : x.call.isAdvertising = false)
    (rest : app.Bystanders t) : app.Bystanders (x :: t) :=
  List.forall_mem_cons.2 ⟨⟨h, hcall⟩, rest⟩

theorem Bystanders.nil : app.Bystanders [] := fun _ h => absurd h List.not_mem_nil

theorem isAdvertising_exported (id : AppId) (n : Node) :
    (n.exported id).isAdvertising = false := by
  cases n <;> rfl

theorem isAdvertising_withdrawn (n : Node) : n.withdrawn.isAdvertising = false := by
  cases n <;> rfl

theorem Bystanders.exporting (h : app'.advertisement = app.advertisement) :
    app.Bystanders (app'.exporting nodes) := by
  intro e he
  obtain ⟨n, -, rfl⟩ := mem_exporting he
  exact ⟨h, isAdvertising_exported _ n⟩

theorem Bystanders.withdrawing (h : app'.advertisement = app.advertisement) :
    app.Bystanders (app'.withdrawing nodes) := by
  intro e he
  obtain ⟨n, -, rfl⟩ := mem_withdrawing he
  exact ⟨h, isAdvertising_withdrawn n⟩

theorem Bystanders.announcing (h : app'.advertisement = app.advertisement) :
    app.Bystanders (app'.announcing nodes) := by
  intro e he
  obtain ⟨before, n, after, -, rfl⟩ := mem_announcing he
  exact ⟨h, rfl⟩

theorem Bystanders.retracting (h : app'.advertisement = app.advertisement) :
    app.Bystanders (app'.retracting nodes) := by
  intro e he
  obtain ⟨before, n, after, interfaces, -, rfl⟩ := mem_retracting he
  exact ⟨h, rfl⟩

theorem bystanders_addition {s : Service} (course : Addition app s t r app') :
    app'.advertisement = app.advertisement ∧ app.Bystanders t := by
  cases course with
  | refused => exact ⟨rfl, .nil⟩
  | @rolledBack done rest n e back welcome nodes withdrawals =>
    have hback : app.Bystanders back := by
      intro x hx
      obtain ⟨hstate, m, -, hcall⟩ := mem_of_question withdrawals hx
      rw [hstate, hcall]
      exact ⟨rfl, isAdvertising_withdrawn m⟩
    exact ⟨rfl, .append (.exporting rfl) (.cons rfl (isAdvertising_exported _ n) hback)⟩
  | unpublished => exact ⟨rfl, .append (.exporting rfl) (.cons rfl rfl .nil)⟩
  | unannounced =>
    exact ⟨rfl, .append (.exporting rfl) (.cons rfl rfl (.append (.announcing rfl)
      (.cons rfl rfl .nil)))⟩
  | completed => exact ⟨rfl, .append (.exporting rfl) (.cons rfl rfl (.announcing rfl))⟩

theorem bystanders_removal {s : Service} (course : Removal app s t r app') :
    app'.advertisement = app.advertisement ∧ app.Bystanders t := by
  cases course with
  | absent => exact ⟨rfl, .nil⟩
  | interrupted => exact ⟨rfl, .append (.retracting rfl) (.cons rfl rfl .nil)⟩
  | stuck =>
    exact ⟨rfl, .append (.retracting rfl) (.append (.withdrawing rfl)
      (.cons rfl (isAdvertising_withdrawn _) .nil))⟩
  | withdrawn =>
    exact ⟨rfl, .append (.retracting rfl) (.append (.withdrawing rfl) (.cons rfl rfl .nil))⟩

/-- **Only starting and stopping are about the advertisement.** -/
theorem performs_bystanders (h : app.Performs a.operation t r app')
    (hstart : ∀ name, a ≠ .start name) (hstop : a ≠ .stop) :
    app'.advertisement = app.advertisement ∧ app.Bystanders t := by
  cases a with
  | run =>
    cases performs_run h with
    | again => exact ⟨rfl, .nil⟩
    | nameless => exact ⟨rfl, .cons rfl rfl .nil⟩
    | unexported => exact ⟨rfl, .cons rfl rfl (.cons rfl rfl .nil)⟩
    | launched => exact ⟨rfl, .cons rfl rfl (.cons rfl rfl (.cons rfl rfl .nil))⟩
  | create properties advertised =>
    obtain ⟨rfl, created, rfl⟩ := performs_create h
    exact ⟨rfl, .nil⟩
  | add s => exact bystanders_addition (performs_addService h)
  | remove s => exact bystanders_removal (performs_removeService h)
  | update path value =>
    rcases performs_updateValue h with ⟨-, rfl, -, rfl⟩ | ⟨services, -, rfl, rfl⟩
    · exact ⟨rfl, .nil⟩
    · exact ⟨rfl, .cons rfl rfl .nil⟩
  | start name => exact absurd rfl (hstart name)
  | stop => exact absurd rfl hstop

/-! ### One episode -/

/-- Where nothing is called for the advertisement, and it stays as it is, an episode is steady. -/
theorem steady_of_bystanders (h : e.after.advertisement = app.advertisement)
    (hcalls : app.Bystanders e.exchanges) (hact : app.isAdvertising = true → e.act ≠ .stop) :
    e.Steady app.isAdvertising where
  act := hact
  calls x hx := (hcalls x hx).2
  states x hx := congrArg Option.isSome (hcalls x hx).1
  after := congrArg Option.isSome h

/-- **While no advertisement is active** an episode leaves it at that, or is a start that opens a
round or fails to. -/
theorem performs_inactive (hnone : app.advertisement = none)
    (h : app.Performs a.operation t r app') :
    (Episode.Steady ⟨a, t, r, app'⟩ false ∧ app'.advertisement = none) ∨
      (∃ offer cause, Episode.Refused ⟨a, t, r, app'⟩ offer cause ∧
        app'.advertisement = none) ∨
      ∃ o, Episode.Opens ⟨a, t, r, app'⟩ o ∧ app'.advertisement = some o.active := by
  have hinactive : app.isAdvertising = false := by rw [isAdvertising, hnone]; rfl
  have hsteady : app'.advertisement = app.advertisement → app.Bystanders t →
      Episode.Steady ⟨a, t, r, app'⟩ false ∧ app'.advertisement = none := by
    intro hsame hcalls
    have hs := steady_of_bystanders (e := ⟨a, t, r, app'⟩) hsame hcalls (by simp [hinactive])
    rw [hinactive] at hs
    exact ⟨hs, hsame.trans hnone⟩
  by_cases hstart : ∃ name, a = .start name
  · obtain ⟨name, rfl⟩ := hstart
    cases performs_startAdvertising h with
    | active hactive => simp [hinactive] at hactive
    | malformed => exact Or.inl (hsteady rfl .nil)
    | @unexported device e inactive hdevice =>
      exact Or.inr (Or.inl ⟨app.advertised, e, ⟨⟨name, device, rfl, hdevice⟩,
        ⟨rfl, by simp [hinactive], hinactive⟩, rfl⟩, hnone⟩)
    | @exported device r inactive hdevice =>
      exact Or.inr (Or.inr ⟨⟨device, app.advertised, r⟩, ⟨⟨name, rfl, hdevice⟩,
        ⟨rfl, by simp [hnone, isAdvertising], rfl⟩, rfl⟩, rfl⟩)
  by_cases hstop : a = .stop
  · subst hstop
    cases performs_stopAdvertising h with
    | inactive => exact Or.inl (hsteady rfl .nil)
    | stopped hactive => simp [hnone] at hactive
  · obtain ⟨hsame, hcalls⟩ := performs_bystanders h (fun name ha => hstart ⟨name, ha⟩) hstop
    exact Or.inl (hsteady hsame hcalls)

/-- **While a round is open** an episode leaves it open, or is the stop that closes it. -/
theorem performs_active (hactive : app.advertisement = some o.active)
    (h : app.Performs a.operation t r app') :
    (Episode.Steady ⟨a, t, r, app'⟩ true ∧ app'.advertisement = some o.active) ∨
      ∃ unregistered withdrawn, Episode.Closes ⟨a, t, r, app'⟩ o unregistered withdrawn ∧
        app'.advertisement = none := by
  have hadvertising : app.isAdvertising = true := by rw [isAdvertising, hactive]; rfl
  have hsteady : a ≠ .stop → app'.advertisement = app.advertisement → app.Bystanders t →
      Episode.Steady ⟨a, t, r, app'⟩ true ∧ app'.advertisement = some o.active := by
    intro hact hsame hcalls
    have hs := steady_of_bystanders (e := ⟨a, t, r, app'⟩) hsame hcalls fun _ => hact
    rw [hadvertising] at hs
    exact ⟨hs, hsame.trans hactive⟩
  by_cases hstart : ∃ name, a = .start name
  · obtain ⟨name, rfl⟩ := hstart
    cases performs_startAdvertising h with
    | active => exact Or.inl (hsteady nofun rfl .nil)
    | malformed inactive => simp [hadvertising] at inactive
    | unexported inactive => simp [hadvertising] at inactive
    | exported inactive => simp [hadvertising] at inactive
  by_cases hstop : a = .stop
  · subst hstop
    cases performs_stopAdvertising h with
    | inactive hnone => simp [hactive] at hnone
    | @stopped active r withdrawn hsome =>
      obtain rfl : o.active = active := Option.some.inj (hactive.symm.trans hsome)
      exact Or.inr ⟨r, withdrawn, ⟨rfl, ⟨rfl, rfl, rfl⟩, rfl⟩, rfl⟩
  · obtain ⟨hsame, hcalls⟩ := performs_bystanders h (fun name ha => hstart ⟨name, ha⟩) hstop
    exact Or.inl (hsteady hstop hsame hcalls)

/-! ### Whole histories -/

/-- **Episodes go in rounds** from any state on that advertises as a round does, or not at all, and
end in such a state. -/
theorem Undergoes.rounds {o : Option Opening} (h : app.Undergoes es app')
    (hfirst : app.advertisement = o.map Opening.active) :
    ∃ rounds last, Rounds o es rounds last ∧ app'.advertisement = last.map Opening.active := by
  induction h generalizing o with
  | nil => exact ⟨[], o, .nil, hfirst⟩
  | @cons app app' e es first rest ih =>
    cases o with
    | none =>
      rcases performs_inactive hfirst first with
        ⟨hsteady, hafter⟩ | ⟨offer, cause, hrefused, hafter⟩ | ⟨o, hopens, hafter⟩
      · obtain ⟨rounds, last, hrounds, hlast⟩ := ih (o := none) hafter
        exact ⟨rounds, last, .aside hsteady hrounds, hlast⟩
      · obtain ⟨rounds, last, hrounds, hlast⟩ := ih (o := none) hafter
        exact ⟨_ :: rounds, last, .refused hrefused hrounds, hlast⟩
      · obtain ⟨rounds, last, hrounds, hlast⟩ := ih (o := some o) hafter
        exact ⟨rounds, last, .opened hopens hrounds, hlast⟩
    | some o =>
      rcases performs_active hfirst first with
        ⟨hsteady, hafter⟩ | ⟨unregistered, withdrawn, hcloses, hafter⟩
      · obtain ⟨rounds, last, hrounds, hlast⟩ := ih (o := some o) hafter
        exact ⟨rounds, last, .aside hsteady hrounds, hlast⟩
      · obtain ⟨rounds, last, hrounds, hlast⟩ := ih (o := none) hafter
        exact ⟨_ :: rounds, last, .closed hcloses hrounds, hlast⟩

/-- Starting while an advertisement is active, stopping while none is, and starting for a name that
no device can have do nothing. -/
structure Inert (app : Application) : Prop where
  start : app.isAdvertising = true →
    ∀ name, app.script (startAdvertising name) = .done (.ok (), app)
  stop : app.isAdvertising = false → app.script stopAdvertising = .done (.ok (), app)
  malformed : app.isAdvertising = false →
    ∀ name fault, ObjectPath.ofText? (deviceStem ++ name) = .error fault →
      app.script (startAdvertising name) = .done (.error (.malformedPath fault), app)

theorem inert (app : Application) : app.Inert where
  start h name := by
    rw [startAdvertising, script_bind, script_get, Script.done_bind]
    exact congrArg app.script (if_pos h)
  stop h := by
    have hnone : app.advertisement = none := by simpa [isAdvertising] using h
    rw [stopAdvertising, script_bind, script_get, Script.done_bind]
    simp only [hnone, script_pure]
  malformed h name fault hname := by
    rw [startAdvertising, script_bind, script_get, Script.done_bind]
    simp [h, hname]

/-- **Advertising goes in rounds**, whatever the bus answers.  The calls about the advertisement
are those of one round after the other, the last of which may be open.  The advertisement is active
exactly while a round is open, for the device of that round. -/
theorem advertising_in_rounds {id : AppId} {profile : Profile}
    (past : (fresh id profile).Undergoes es app) :
    (∃ rounds last, Rounds none es rounds last ∧
      advertisingCalls (es.flatMap Episode.exchanges) =
        rounds.flatMap Round.calls ++ last.toList.flatMap Opening.calls ∧
      app.advertisement = last.map Opening.active) ∧ app.Inert := by
  obtain ⟨rounds, last, hrounds, hlast⟩ := past.rounds (o := none) rfl
  exact ⟨⟨rounds, last, hrounds, hrounds.calls, hlast⟩, app.inert⟩

/-- Advertising is refused, started without being registered, stopped in vain while services change,
and started again. -/
def troubledAdvertising : List Act :=
  [.run, .start "hci0", .start "hci0", .add Sample.battery, .start "hci1", .stop, .stop,
    .start "hci1"]

def troubledAdvertisingAnswers : List Answer :=
  [.ok (), .ok (), .ok (), Sample.failure, .ok (), Sample.failure] ++ List.replicate 7 (.ok ()) ++
    [Sample.failure, Sample.failure]

/-- The hypothesis is satisfiable: of the seven calls about the advertisement one is a round that is
refused, four are a round that is closed, and two leave a round open. -/
theorem advertising_in_rounds_troubled :
    let told := recount Sample.answering (fresh 0 Sample.profile) troubledAdvertising
      troubledAdvertisingAnswers
    (advertisingCalls (told.1.flatMap Episode.exchanges)).length = 7 ∧
      (∃ rounds last, Rounds none told.1 rounds last ∧
        advertisingCalls (told.1.flatMap Episode.exchanges) =
          rounds.flatMap Round.calls ++ last.toList.flatMap Opening.calls ∧
        told.2.advertisement = last.map Opening.active) ∧ told.2.Inert :=
  ⟨by decide, advertising_in_rounds (undergoes_recount Sample.answering (fresh 0 Sample.profile)
    troubledAdvertising troubledAdvertisingAnswers)⟩

end Application
end GattServer
