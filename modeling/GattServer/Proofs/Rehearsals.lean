/-
# Rehearsals

While an application is in the middle of an operation, and waits for the answer to a call, anything
else may happen on its host: peers call methods, other applications make calls on the same
connection, services are created, applications are set up and dropped.  A scene is a host together
with what is left of the operations that its applications are in the middle of (`Host.Scene`), and a
rehearsal goes through moves in any order (`Host.Scene.rehearse`):

| move | what happens |
| --- | --- |
| turn | the host does something that is not divided any further |
| start | an application begins an operation; it is in the middle of one at a time |
| proceed | an operation goes on up to its next call, or ends |
| carry | the call is carried out and answered |
| give up | an operation is left as it is and never goes on |

Where nothing comes in between, these moves make of an operation what the host makes of it as a
whole (`Host.exists_rehearse_operate`).

The log of a rehearsal keeps the exchanges of all applications, with the act that each belongs to
and the connection it went over.  Several applications may export objects on one connection, and
anyone may withdraw them or export advertisements.  Still, what is exported at a path can be traced
back: the object of a characteristic or a descriptor was exported for a node of a service that some
application had been given to add, and nothing has moved it since (`Host.Scene.sound_rehearse`).
An operation may have been given up since, or be underway still.  What is known of it is what is
known of all ways in which it may go on (`Script.Leaves`).
-/

import GattServer.Proofs.Provenance

namespace GattServer

/-! ### What is left of a script -/

namespace Script

variable {σ α : Type} {x rest : Script σ α} {t : List (Exchange σ)}

/-- A script has another one left to do after some exchanges: what completes this one, completes
the script. -/
def Leaves (x : Script σ α) (t : List (Exchange σ)) (rest : Script σ α) : Prop :=
  ∀ u a, rest.Trace u a → x.Trace (t ++ u) a

theorem Leaves.refl (x : Script σ α) : x.Leaves [] x := fun _ _ htrace => htrace

theorem Leaves.warn {w : Warning} (h : x.Leaves t (.warn w rest)) : x.Leaves t rest :=
  fun u a htrace => h u a (.warn htrace)

theorem Leaves.call {s : σ} {c : Call} {next : Answer → Script σ α}
    (h : x.Leaves t (.call s c next)) (answer : Answer) :
    x.Leaves (t ++ [⟨s, c, answer⟩]) (next answer) := by
  intro u a htrace
  have hwhole := h (⟨s, c, answer⟩ :: u) a (.call answer htrace)
  rwa [List.append_cons] at hwhole

/-- Every script can be completed. -/
theorem exists_trace (x : Script σ α) : ∃ t a, x.Trace t a := by
  induction x with
  | done a => exact ⟨[], a, .done a⟩
  | warn w next ih =>
    obtain ⟨t, a, htrace⟩ := ih
    exact ⟨t, a, .warn htrace⟩
  | call s c next ih =>
    obtain ⟨t, a, htrace⟩ := ih (.ok ())
    exact ⟨_, a, .call (.ok ()) htrace⟩

/-- Whatever call is next in what is left of a script is in one of its traces. -/
theorem Leaves.exists_trace {s : σ} {c : Call} {next : Answer → Script σ α}
    (h : x.Leaves t (.call s c next)) : ∃ u a, x.Trace (t ++ ⟨s, c, .ok ()⟩ :: u) a := by
  obtain ⟨u, a, htrace⟩ := (next (.ok ())).exists_trace
  exact ⟨u, a, h _ a (.call (.ok ()) htrace)⟩

end Script

/-! ### Scenes and moves -/

namespace Host

/-- Something that happens on a host at once: an application is set up, creates a service, is
dropped, can be reached, or handles a request; an advertisement is exported or an object withdrawn
on the shared connection, for no application in particular; a peer calls a method; or the faults or
the daemons change. -/
inductive Turn where
  | create (settings : Settings) (handlers : Handlers Memory) (own : Bool)
  | createService (id : AppId) (properties : ServiceProperties) (advertised : Bool)
  | drop (id : AppId)
  | reach (id : AppId)
  | handle (id : AppId) (r : Request)
  | exportAdvertisement (path : ObjectPath) (a : Advertisement)
  | withdraw (path : ObjectPath) (kind : ObjectKind)
  | receive (n : Nat) (c : MethodCall)
  | setFaults (faults : FaultPlan)
  | setDaemon (daemon : Daemon)

/-- The host after a turn.  What is asked of an application that is not held, or of a connection
that peers do not reach, is left undone. -/
def turn (h : Host) : Turn → Host
  | .create settings handlers own => (h.create settings handlers own).2
  | .createService id properties advertised =>
    ((h.createService id properties advertised).map fun r => r.2).getD h
  | .drop id => h.drop id
  | .reach id => h.reach id
  | .handle id r => ((h.handle id r).map fun r => r.2.1).getD h
  | .exportAdvertisement path a => (h.call (.exportObject path (.advertisement a))).2.1
  | .withdraw path kind => (h.call (.withdrawObject path kind)).2.1
  | .receive n c => ((h.receive n c).map fun r => r.2.1).getD h
  | .setFaults faults => { h with faults }
  | .setDaemon daemon => { h with daemon }

/-- The host with an application in another state.  What has been created is counted apart from the
rest of the state, since services are created in the middle of operations too. -/
def setState (h : Host) (id : AppId) (a : Hosted) (app : Application) : Host :=
  h.setApp id { a with application := { app with created := a.application.created } }

/-- An operation that has begun: the act that it carries out, and what is left to do. -/
structure Pending where
  act : Act
  rest : Script Application (Answer × Application)

/-- A host, and the operations that its applications are in the middle of. -/
structure Scene where
  host : Host
  pending : AppId → Option Pending

/-- A move of a scene. -/
inductive Move where
  /-- The host takes a turn. -/
  | turn (t : Turn)
  /-- An application begins an operation. -/
  | start (id : AppId) (a : Act)
  /-- The operation of an application goes on, up to its next call or to its end. -/
  | proceed (id : AppId)
  /-- The next call of the operation is carried out and answered. -/
  | carry (id : AppId)
  /-- The operation is given up; what it has done stays. -/
  | giveUp (id : AppId)

/-- An exchange of an application, with the connection it went over and the act it belongs to. -/
structure Entry where
  link : Nat
  app : AppId
  act : Act
  exchange : Exchange Application

namespace Scene

/-- A host without applications. -/
def fresh : Scene := ⟨.fresh, fun _ => none⟩

/-- The scene with another operation for an application to be in the middle of, or with none. -/
def setPending (s : Scene) (id : AppId) (p : Option Pending) : Scene :=
  { s with pending := Function.update s.pending id p }

/-- An application that is held begins an operation, unless it is in the middle of one.  To create a
service takes no calls, and is done at once. -/
def start (s : Scene) (id : AppId) : Act → Scene
  | .create properties advertised =>
    { s with host := s.host.turn (.createService id properties advertised) }
  | a =>
    match s.host.app? id, s.pending id with
    | some hosted, none => s.setPending id (some ⟨a, hosted.application.script a.operation⟩)
    | _, _ => s

/-- An operation goes on: it takes its application to the state of its next call, puts a warning on
record, or ends.  The operations of applications that have been dropped do not go on. -/
def proceed (s : Scene) (id : AppId) : Scene :=
  match s.host.app? id, s.pending id with
  | some a, some ⟨_, .done (_, app)⟩ =>
    { s with host := s.host.setState id a app }.setPending id none
  | some _, some ⟨act, .warn _ next⟩ => s.setPending id (some ⟨act, next⟩)
  | some a, some ⟨_, .call app _ _⟩ => { s with host := s.host.setState id a app }
  | _, _ => s

/-- The next call of an operation is carried out on the connection of its application.  If it makes
no call just now, nothing is done. -/
def carry (s : Scene) (id : AppId) : List Entry × Scene :=
  match s.host.app? id, s.pending id with
  | some a, some ⟨act, .call app c next⟩ =>
    let (answer, t) := (s.host.busOf a).call c (s.host.traffic a.link)
    ([⟨a.link, id, act, ⟨app, c, answer⟩⟩],
      { s with host := s.host.settle t }.setPending id (some ⟨act, next answer⟩))
  | _, _ => ([], s)

/-- The exchanges in a move, and the scene after it. -/
def move (s : Scene) : Move → List Entry × Scene
  | .turn t => ([], { s with host := s.host.turn t })
  | .start id a => ([], s.start id a)
  | .proceed id => ([], s.proceed id)
  | .carry id => s.carry id
  | .giveUp id => ([], s.setPending id none)

/-- Goes through moves, and keeps a log of all exchanges. -/
def rehearse : Scene → List Move → List Entry × Scene
  | s, [] => ([], s)
  | s, m :: rest =>
    let next := s.move m
    let last := next.2.rehearse rest
    (next.1 ++ last.1, last.2)

end Scene

/-! ### Objects and their origin -/

/-- An exchange in which an application exports a node of a service that it was given to add. -/
structure Entry.Publishes (e : Entry) (n : Nat) (node : Node) : Prop where
  link : e.link = n
  added : ∃ s, e.act = .add s ∧ node ∈ s.nodes
  call : e.exchange.call = node.exported e.app
  succeeded : e.exchange.Succeeded

/-- The last exchange that moved the object of a kind at a path is the one in which an application
exported it for a node. -/
structure LastExport (log : List Entry) (n : Nat) (q : ObjectPath) (kind : ObjectKind) (e : Entry)
    (node : Node) : Prop where
  publishes : e.Publishes n node
  pair : node.pair = (q, kind)
  last : ∃ before after, log = before ++ e :: after ∧
    ∀ f ∈ after, f.link = n → f.exchange.moved? ≠ some (q, kind)

/-- The last export of an object gave it an address. -/
def Origin (log : List Entry) (n : Nat) (q : ObjectPath) (kind : ObjectKind)
    (address : Option (AppId × Target)) : Prop :=
  ∃ e node, LastExport log n q kind e node ∧ (node.object e.app).address? = address

/-- The applications are numbered in order, so the number in an address tells which one answers. -/
def Numbered (h : Host) : Prop :=
  ∀ (i : Nat) (a : Hosted), h.apps[i]? = some a → a.application.id = i

/-- **All nodes on the connections of a host come from its applications.** -/
structure Attributed (log : List Entry) (h : Host) : Prop where
  numbered : h.Numbered
  hosted : ∀ e ∈ log, e.app < h.apps.length
  origin : ∀ n q kind address, kind.isNode = true →
    (h.link n).connection.Addressed q kind address → Origin log n q kind address

variable {h h' : Host} {log : List Entry} {n m : Nat} {q : ObjectPath} {kind : ObjectKind}
  {address : Option (AppId × Target)} {l : Link} {i : AppId} {a b : Hosted}

/-! ### Hosts with a part replaced -/

theorem link_setLink :
    (h.setLink n l).link m = if m = n ∧ n < h.links.length then l else h.link m := by
  rw [link, setLink, List.getD_eq_getElem?_getD, List.getElem?_set, link,
    List.getD_eq_getElem?_getD]
  by_cases hm : n = m
  · subst hm
    split_ifs with hn <;> simp_all
  · rw [if_neg hm, if_neg fun h => hm h.1.symm]

theorem settle_link {t : Traffic} :
    (h.settle t).link n = if n = t.link ∧ t.link < h.links.length then
      { h.link t.link with connection := t.connection } else h.link n := link_setLink

theorem getElem?_concat {α : Type} (l : List α) (x : α) (j : Nat) :
    (l ++ [x])[j]? = if j = l.length then some x else l[j]? := by
  rw [List.getElem?_append, List.getElem?_singleton]
  split_ifs with hlt heq hlast
  · omega
  · rfl
  · rfl
  · omega
  · omega
  · exact (List.getElem?_eq_none (not_lt.1 hlt)).symm

theorem set_of_getElem? {β : Type} {l : List β} {x : β} {j : Nat} (h : l[j]? = some x) :
    l.set j x = l := by
  obtain ⟨hj, rfl⟩ := List.getElem?_eq_some_iff.1 h
  exact List.set_getElem_self hj

theorem setLink_link (h : Host) (n : Nat) : h.setLink n (h.link n) = h := by
  have hlinks : h.links.set n (h.link n) = h.links := by
    cases hlink : h.links[n]? with
    | none => exact List.set_eq_of_length_le (List.getElem?_eq_none_iff.1 hlink)
    | some l =>
      rw [link, List.getD_eq_getElem?_getD, hlink, Option.getD_some]
      exact set_of_getElem? hlink
  rw [setLink, hlinks]

theorem setApp_self (hosted : h.apps[i]? = some a) : h.setApp i a = h := by
  rw [setApp, set_of_getElem? hosted]

/-! ### Turns export no nodes -/

/-- From one state of a host to another, no node has come, and the applications are still numbered
in order. -/
structure Quieter (h h' : Host) : Prop where
  numbered : h.Numbered → h'.Numbered
  length : h.apps.length ≤ h'.apps.length
  addressed : ∀ n q kind address, kind.isNode = true →
    (h'.link n).connection.Addressed q kind address →
      (h.link n).connection.Addressed q kind address

namespace Quieter

theorem refl (h : Host) : Quieter h h := ⟨id, le_rfl, fun _ _ _ _ _ => id⟩

theorem trans {h'' : Host} (first : Quieter h h') (last : Quieter h' h'') : Quieter h h'' where
  numbered hnumbered := last.numbered (first.numbered hnumbered)
  length := first.length.trans last.length
  addressed n q kind address hkind haddressed :=
    first.addressed n q kind address hkind (last.addressed n q kind address hkind haddressed)

theorem setApp (hosted : h.apps[i]? = some a) (hid : b.application.id = a.application.id) :
    Quieter h (h.setApp i b) where
  numbered hnumbered j c hc := by
    rw [Host.setApp, List.getElem?_set] at hc
    split_ifs at hc with hj
    · obtain rfl := Option.some.inj hc
      rw [hid, hnumbered i a hosted, hj]
    · exact hnumbered j c hc
  length := (List.length_set ..).ge
  addressed _ _ _ _ _ := id

theorem setLink (hl : ∀ q kind address, kind.isNode = true →
    l.connection.Addressed q kind address → (h.link n).connection.Addressed q kind address) :
    Quieter h (h.setLink n l) where
  numbered := id
  length := le_rfl
  addressed m q kind address hkind haddressed := by
    rw [link_setLink] at haddressed
    split_ifs at haddressed with hm
    · rw [hm.1]
      exact hl q kind address hkind haddressed
    · exact haddressed

theorem openLink (h : Host) : Quieter h { h with links := h.links ++ [⟨.fresh, false⟩] } where
  numbered := id
  length := le_rfl
  addressed n q kind address _ haddressed := by
    have hlink : (h.links ++ [(⟨.fresh, false⟩ : Link)]).getD n default = h.link n := by
      rw [link, List.getD_eq_getElem?_getD, List.getD_eq_getElem?_getD, getElem?_concat]
      split_ifs with hn
      · rw [hn, List.getElem?_eq_none le_rfl]
        rfl
      · rfl
    rwa [link, hlink] at haddressed

theorem hostApp (hid : a.application.id = h.apps.length) :
    Quieter h { h with apps := h.apps ++ [a] } where
  numbered hnumbered j c hc := by
    rw [getElem?_concat] at hc
    split_ifs at hc with hj
    · rw [← Option.some.inj hc, hid, hj]
    · exact hnumbered j c hc
  length := by simp
  addressed _ _ _ _ _ := id

theorem create (h : Host) (settings : Settings) (handlers : Handlers Memory) (own : Bool) :
    Quieter h (h.create settings handlers own).2 := by
  cases hvalid : settings.validate with
  | error e =>
    have hrefused : ∀ i, Application.new i settings = .error e := fun i => by
      rw [Application.new, hvalid]
      rfl
    simp only [Host.create, hrefused]
    cases own with
    | false => exact .refl h
    | true => exact openLink h
  | ok path =>
    have hset : ∀ i, Application.new i settings = .ok (.fresh i ⟨settings, path⟩) := fun i => by
      rw [Application.new, hvalid]
      rfl
    simp only [Host.create, hset]
    cases own with
    | false => exact .hostApp rfl
    | true => exact (openLink h).trans (.hostApp rfl)

theorem drop (h : Host) (i : AppId) : Quieter h (h.drop i) := by
  rw [Host.drop]
  cases ha : h.app? i with
  | none => exact .refl h
  | some a =>
    have hset : Quieter h (h.setApp i { a with alive := false }) :=
      .setApp (app?_eq_some.1 ha).1 rfl
    dsimp only
    split_ifs
    · exact hset
    · exact hset.trans (.setLink fun _ _ _ _ => id)

theorem reach (h : Host) (i : AppId) : Quieter h (h.reach i) := by
  rw [Host.reach]
  cases h.app? i with
  | none => exact .refl h
  | some a => exact .setLink fun _ _ _ _ => id

theorem createService (h : Host) (i : AppId) (properties : ServiceProperties)
    (advertised : Bool) : Quieter h (h.turn (.createService i properties advertised)) := by
  rw [turn, Host.createService]
  cases ha : h.app? i with
  | none => exact .refl h
  | some a =>
    simp only [Option.map_some, Option.getD_some]
    cases hnew : a.application.createService properties advertised with
    | error e => exact .refl h
    | ok p =>
      obtain ⟨-, hp⟩ := Application.createService_eq hnew
      refine .setApp (app?_eq_some.1 ha).1 ?_
      rw [hp]

theorem handle (h : Host) (i : AppId) (r : Request) : Quieter h (h.turn (.handle i r)) := by
  rw [turn, Host.handle]
  cases ha : h.app? i with
  | none => exact .refl h
  | some a => exact .setApp (app?_eq_some.1 ha).1 rfl

theorem complete (h : Host) (response : Response) : Quieter h (h.complete response).2.1 := by
  cases response with
  | reply r => exact .refl h
  | text t => exact .refl h
  | listing i =>
    rw [Host.complete]
    split <;> exact .refl h
  | request i r =>
    have hhandle := handle h i r
    rw [turn] at hhandle
    rw [Host.complete]
    split
    · exact .refl h
    · next hdone =>
      rw [hdone] at hhandle
      exact hhandle

theorem receive (h : Host) (n : Nat) (c : MethodCall) : Quieter h (h.turn (.receive n c)) := by
  rw [turn, Host.receive]
  split_ifs
  · refine .trans (.setLink fun q kind address _ haddressed => ?_) (.complete _ _)
    exact haddressed.of_receive
  · exact .refl h

theorem settle {t : Traffic} (ht : ∀ q kind address, kind.isNode = true →
    t.connection.Addressed q kind address →
      (h.link t.link).connection.Addressed q kind address) : Quieter h (h.settle t) :=
  have hlink : Quieter h (h.setLink t.link { h.link t.link with connection := t.connection }) :=
    .setLink ht
  ⟨hlink.numbered, hlink.length, hlink.addressed⟩

/-- A call that is made for no application exports no node. -/
theorem call (h : Host) {c : Call}
    (aside : ∀ path o, c = .exportObject path o → o.kind.isNode = false) :
    Quieter h (h.call c).2.1 := by
  have hcall : (h.call c).2.1 = h.settle ((Traffic.sharedBus h.daemon).call c (h.traffic 0)).2 :=
    rfl
  rw [hcall]
  refine settle fun q kind address hkind haddressed => ?_
  rw [(Traffic.faithful_sharedBus h.daemon).link]
  rcases haddressed.of_call (Traffic.transparent_sharedBus h.daemon) with
    ⟨hbefore, -⟩ | ⟨-, o, rfl, rfl, -⟩
  · exact hbefore
  · rw [aside q o rfl] at hkind
    cases hkind

/-- **No turn exports a node.** -/
theorem turn (h : Host) (t : Turn) : Quieter h (h.turn t) := by
  cases t with
  | create settings handlers own => exact create h settings handlers own
  | createService i properties advertised => exact createService h i properties advertised
  | drop i => exact drop h i
  | reach i => exact reach h i
  | handle i r => exact handle h i r
  | exportAdvertisement path a =>
    refine call h ?_
    rintro _ _ ⟨⟩
    rfl
  | withdraw path kind => exact call h nofun
  | receive n c => exact receive h n c
  | setFaults | setDaemon => exact ⟨id, le_rfl, fun _ _ _ _ _ => id⟩

end Quieter

/-- Later exchanges that do not move an object leave its origin as it is. -/
theorem Origin.append {more : List Entry} (h : Origin log n q kind address)
    (still : ∀ f ∈ more, f.link = n → f.exchange.moved? ≠ some (q, kind)) :
    Origin (log ++ more) n q kind address := by
  obtain ⟨e, node, ⟨publishes, hpair, before, after, rfl, hafter⟩, haddress⟩ := h
  refine ⟨e, node, ⟨publishes, hpair, before, after ++ more, by simp, ?_⟩, haddress⟩
  exact List.forall_mem_append.2 ⟨hafter, still⟩

theorem Attributed.quieter (attributed : Attributed log h) (quieter : Quieter h h') :
    Attributed log h' where
  numbered := quieter.numbered attributed.numbered
  hosted e he := (attributed.hosted e he).trans_le quieter.length
  origin n q kind address hkind haddressed :=
    attributed.origin n q kind address hkind (quieter.addressed n q kind address hkind haddressed)

/-- At first there are no nodes. -/
theorem attributed_fresh : Attributed [] Host.fresh where
  numbered i a ha := by cases ha
  hosted e he := absurd he List.not_mem_nil
  origin n q kind address _ haddressed := by
    have hlink : (Host.fresh.link n).connection = Connection.fresh := by
      cases n <;> rfl
    rw [hlink] at haddressed
    exact absurd haddressed Connection.not_addressed_fresh

/-! ### Operations underway -/

variable {act : Act} {app : Application} {c : Call} {next : Answer → Script Application _}
  {p : Pending} {p? : Option Pending} {s : Scene}

/-- An operation is one of an application: it is what is left of it after some exchanges, in some
state that the operation began in. -/
def Pending.IsOf (p : Pending) (i : AppId) : Prop :=
  ∃ (start : Application) (t : List (Exchange Application)), start.id = i ∧
    (start.script p.act.operation).Leaves t p.rest

/-- **An operation at a call** shows a state of its application; and if the call exports a node, it
adds the service of this node. -/
theorem Pending.IsOf.call (h : Pending.IsOf ⟨act, .call app c next⟩ i) :
    app.id = i ∧ ∀ q o, c = .exportObject q o → o.kind.isNode = true →
      ∃ service n, act = .add service ∧ n ∈ service.nodes ∧ c = n.exported i := by
  obtain ⟨start, t, rfl, leaves⟩ := h
  obtain ⟨u, ⟨r, app'⟩, performs⟩ := leaves.exists_trace
  replace performs : start.Performs act.operation (t ++ ⟨app, c, .ok ()⟩ :: u) r app' := performs
  have hmem : ⟨app, c, .ok ()⟩ ∈ t ++ ⟨app, c, .ok ()⟩ :: u := by simp
  exact ⟨Application.id_state_of_performs performs _ hmem, fun q o hcall hkind =>
    Application.exported_of_performs performs hmem hcall hkind⟩

/-- An operation that ends leaves its application its number. -/
theorem Pending.IsOf.done {r : Answer} (h : Pending.IsOf ⟨act, .done (r, app)⟩ i) : app.id = i := by
  obtain ⟨start, t, rfl, leaves⟩ := h
  exact Application.performs_id (leaves [] (r, app) (.done _))

/-- **Carrying out a call leaves nodes that come from applications.** -/
theorem Attributed.carry (attributed : Attributed log h) (held : h.app? i = some a)
    (isOf : Pending.IsOf ⟨act, .call app c next⟩ i) :
    Attributed (log ++ [⟨a.link, i, act, ⟨app, c, ((h.busOf a).call c (h.traffic a.link)).1⟩⟩])
      (h.settle ((h.busOf a).call c (h.traffic a.link)).2) := by
  have hosted := (app?_eq_some.1 held).1
  have hlink : ((h.busOf a).call c (h.traffic a.link)).2.link = a.link :=
    (h.faithful_busOf a).link c (h.traffic a.link)
  refine ⟨attributed.numbered, fun e he => ?_, fun n q kind address hkind haddressed => ?_⟩
  · rcases List.mem_append.1 he with he | he
    · exact attributed.hosted e he
    · rw [List.mem_singleton.1 he]
      exact (List.getElem?_eq_some_iff.1 hosted).1
  rw [settle_link, hlink] at haddressed
  split_ifs at haddressed with hat
  · obtain ⟨rfl, -⟩ := hat
    rcases Connection.Addressed.of_call (h.transparent_busOf a) haddressed with
      ⟨hbefore, hstill⟩ | ⟨succeeded, o, hcall, rfl, rfl⟩
    · refine (attributed.origin _ _ _ _ hkind hbefore).append fun f hf _ => ?_
      rw [List.mem_singleton.1 hf]
      exact Exchange.moved?_ne hstill
    · obtain ⟨service, node, hact, hnode, hexported⟩ := isOf.call.2 q o hcall hkind
      obtain ⟨-, hobject⟩ := Call.exportObject.inj (hcall.symm.trans hexported)
      have hpair := node.object?_exported i
      rw [← hexported, hcall] at hpair
      have publishes : Entry.Publishes ⟨a.link, i, act, ⟨app, c, _⟩⟩ a.link node :=
        ⟨rfl, ⟨service, hact, hnode⟩, hexported, succeeded⟩
      exact ⟨_, node, ⟨publishes, (Option.some.inj hpair).symm, log, [], rfl,
        fun f hf => absurd hf List.not_mem_nil⟩, congrArg Object.address? hobject.symm⟩
  · refine (attributed.origin n q kind address hkind haddressed).append fun f hf hother => ?_
    -- a connection that the host does not have holds no node
    rw [List.mem_singleton.1 hf] at hother
    obtain rfl : a.link = n := hother
    have hnone : h.links[a.link]? = none := by
      rw [List.getElem?_eq_none_iff]
      exact not_lt.1 fun hlt => hat ⟨rfl, hlt⟩
    rw [link, List.getD_eq_getElem?_getD, hnone] at haddressed
    exact absurd haddressed Connection.not_addressed_fresh

/-- **A scene is sound** with a log if all nodes come from applications, and what is underway are
operations of theirs. -/
structure Scene.Sound (log : List Entry) (s : Scene) : Prop where
  attributed : Attributed log s.host
  pending : ∀ i p, s.pending i = some p → p.IsOf i

namespace Scene.Sound

theorem setPending (sound : Sound log s) (h : ∀ p' ∈ p?, p'.IsOf i) :
    Sound log (s.setPending i p?) where
  attributed := sound.attributed
  pending j q hq := by
    simp only [Scene.setPending, Function.update_apply] at hq
    split_ifs at hq with hj
    · rw [hj]
      exact h q hq
    · exact sound.pending j q hq

theorem quieter (sound : Sound log s) (quieter : Quieter s.host h) :
    Sound log { s with host := h } :=
  ⟨sound.attributed.quieter quieter, sound.pending⟩

theorem start (sound : Sound log s) (i : AppId) (act : Act) : Sound log (s.start i act) := by
  unfold Scene.start
  split
  · exact sound.quieter (.turn _ _)
  · split
    · next a held idle =>
      refine sound.setPending fun p hp => ?_
      obtain rfl := Option.some.inj hp
      exact ⟨a.application, [], sound.attributed.numbered i a (app?_eq_some.1 held).1, .refl _⟩
    · exact sound

/-- **An operation that goes on exports nothing.** -/
theorem proceed (sound : Sound log s) (i : AppId) : Sound log (s.proceed i) := by
  have hstate : ∀ {a app}, s.host.app? i = some a → app.id = i →
      Quieter s.host (s.host.setState i a app) := by
    intro a app held hid
    have hosted := (app?_eq_some.1 held).1
    exact .setApp hosted (hid.trans (sound.attributed.numbered i a hosted).symm)
  rw [Scene.proceed]
  split
  · next a act r app held hpending =>
    have hid := (sound.pending i _ hpending).done
    exact (sound.quieter (hstate held hid)).setPending nofun
  · next a act w next held hpending =>
    obtain ⟨start, t, hid, leaves⟩ := sound.pending i _ hpending
    refine sound.setPending fun p hp => ?_
    obtain rfl := Option.some.inj hp
    exact ⟨start, t, hid, leaves.warn⟩
  · next a act app c next held hpending =>
    exact sound.quieter (hstate held (sound.pending i _ hpending).call.1)
  · exact sound

/-- **A call that is carried out leaves the scene sound.** -/
theorem carry (sound : Sound log s) (i : AppId) :
    Sound (log ++ (s.carry i).1) (s.carry i).2 := by
  rw [Scene.carry]
  split
  · next a act app c next held hpending =>
    have isOf := sound.pending i _ hpending
    have hcarried : Sound _ { s with host := _ } :=
      ⟨sound.attributed.carry held isOf, sound.pending⟩
    refine hcarried.setPending fun p hp => ?_
    obtain rfl := Option.some.inj hp
    obtain ⟨start, t, hid, leaves⟩ := isOf
    exact ⟨start, _, hid, leaves.call _⟩
  · rwa [List.append_nil]

/-- **Every move leaves a scene sound.** -/
theorem move (sound : Sound log s) (m : Move) : Sound (log ++ (s.move m).1) (s.move m).2 := by
  cases m with
  | carry i => exact sound.carry i
  | turn t =>
    rw [Scene.move, List.append_nil]
    exact sound.quieter (.turn _ t)
  | start i a =>
    rw [Scene.move, List.append_nil]
    exact sound.start i a
  | proceed i =>
    rw [Scene.move, List.append_nil]
    exact sound.proceed i
  | giveUp i =>
    rw [Scene.move, List.append_nil]
    exact sound.setPending nofun

end Scene.Sound

/-- **In every rehearsal, all nodes on the connections come from the applications.** -/
theorem Scene.sound_rehearse (moves : List Move) :
    Sound (fresh.rehearse moves).1 (fresh.rehearse moves).2 := by
  suffices ∀ (s : Scene) (log : List Entry), Sound log s →
      Sound (log ++ (s.rehearse moves).1) (s.rehearse moves).2 from
    this fresh [] ⟨attributed_fresh, nofun⟩
  induction moves with
  | nil =>
    intro s log sound
    rwa [rehearse, List.append_nil]
  | cons m rest ih =>
    intro s log sound
    have hnext := ih (s.move m).2 (log ++ (s.move m).1) (sound.move m)
    rwa [List.append_assoc] at hnext

end Host
end GattServer
