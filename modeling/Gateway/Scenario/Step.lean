import Gateway.Scenario.Script
import Gateway.Scenario.World

/-!
The steps of a scenario, and what each answers. A step calls one thing of the library; nothing is
decided here that the library does not decide, but for names.
-/
namespace Gateway.Scenario

open Connection

inductive CreatorChoice where
  | builtin (name : String)
  | script (s : CreatorScript)

/-- Steps while the server is set up, and looks at what was set up. -/
inductive SetupStep where
  | withDefaults (c : Config.SessionConfig)
  | customizeDefaults (o : Config.Overrides)
  | addMapping (declaration : String) (creator : CreatorChoice) (o : Config.Overrides)
  | build
  | buildFromConfig (c : Config.ServerConfig)
  | mappings
  | defaults
  | resolve (path : String)

inductive RegistryStep where
  /-- Defines a listener unless it is defined, and registers it if asked to. -/
  | listener (l : Session.Listener) (register : Bool)
  | removeListener (name : String)
  | counts
  | metrics
  | openSession (s : String)
  | closeSession (s : String)
  | report (s : String) (e : Session.Error)
  | notify (s : String) (event : Session.Event)
  | snapshot
  | get (s : String)
  | closeAll
  | dropRegistry

inductive SessionStep where
  | info
  | account
  | send (m : Session.Message)
  | sendMany (count : Nat)
  | takeQueue
  | receive
  | dropQueue
  | forget
  | watchClose
  | closeRequested
  | requestClose
  | call (c : Session.Callback)

inductive NetworkStep where
  | serve (adminKey : String)
  /-- A request, or nothing where the client writes what is no request. -/
  | connect (name : String) (request : Option Http.Request) (abandon : Bool)
  | frame (client : String) (f : Frame)
  | hangup (client : String)
  | sever (client : String)
  | advance (secs : Nat)
  /-- The marks `{id}` and `{uuid}` in the path stand for the ids of a session. -/
  | admin (path : String) (session : Option String) (request : Http.Request)

inductive Step where
  | setup (s : SetupStep)
  | handle (name : String) (request : Upgrade.Request) (completedBefore : Bool)
  | newSession (name path declaration : String) (endpoint : EndpointChoice)
      (config : Config.SessionConfig) (subprotocol : Option String)
  | registry (s : RegistryStep)
  | session (name : String) (s : SessionStep)
  | network (s : NetworkStep)
  | newIds (count : Nat)

structure ExchangeReport where
  exchange : Upgrade.Exchange
  /-- Runs of the completion's callback before the last handle is given up, and after. -/
  fired : List Upgrade.Outcome
  firedOnDrop : List Upgrade.Outcome
  session : Option Session

inductive Refusal where
  | noSession
  | notBuilt
  | noMatch
  | noClient
  | unknownEndpoint
  | mapping (e : Upgrade.MappingError)
  | startup (e : StartupError)
  | spec (e : Path.SpecError)
  | session (e : Session.Error)

inductive Reply where
  | done
  | flag (b : Bool)
  | count (n : Nat)
  | texts (ts : List String)
  | name (s : Option String)
  | refused (r : Refusal)
  | faults (fs : List Session.Fault)
  | registry (r : Registry)
  | mappings (ns : List Upgrade.Negotiator)
  | config (c : Config.SessionConfig)
  | resolved (r : Option (Upgrade.Negotiator × Path.Match))
  | exchange (r : ExchangeReport)
  | session (s : Session)
  | account (text : String) (m : Path.Match)
  | received (m : Option Session.Message) (closed : Bool)
  | panicked
  | serving (key : String)
  | response (r : Option Http.Response)
  | brokenPipe
  | idsMade (distinct readBack : Nat)

namespace World

/-! ### Setting up -/

def creator? (w : World) : CreatorChoice → Option Upgrade.Creator
  | .builtin name => Upgrade.Creator.named? name w.hub.registry.serial
  | .script s => some (s.creator w.hub.registry.serial)

def addMapping (w : World) (c : Upgrade.Container) (declaration : String)
    (choice : CreatorChoice) (o : Config.Overrides) : World × Reply :=
  match w.creator? choice with
  | none => (w, .refused .unknownEndpoint)
  | some creator =>
    match Path.Spec.parse declaration.toList with
    | .error e => (w, .refused (.mapping (.invalidSpec e)))
    | .ok spec =>
      match c.register? spec creator o with
      | .error e => (w, .refused (.mapping e))
      | .ok c => ({ w with builder := some c }.note (.line (Upgrade.Container.registration spec)),
          .done)

def buildFromConfig (w : World) (config : Config.ServerConfig) : World × Reply :=
  match Startup.build w.hub config with
  | (hub, .error e) => ({ w with hub }, .refused (.startup e))
  | (hub, .ok c) =>
    ({ w with hub, builder := none, container := some c, registryDropped := false }, .done)

def onBuilder (w : World) (f : Upgrade.Container → World × Reply) : World × Reply :=
  match w.builder with
  | none => (w, .refused .notBuilt)
  | some c => f c

def onContainer (w : World) (f : Upgrade.Container → World × Reply) : World × Reply :=
  match w.container with
  | none => (w, .refused .notBuilt)
  | some c => f c

def setup (w : World) : SetupStep → World × Reply
  | .withDefaults c => w.onBuilder fun b =>
    ({ w with builder := some { b with defaults := c } }, .done)
  | .customizeDefaults o => w.onBuilder fun b =>
    ({ w with builder := some { b with defaults := b.defaults.customized o } }, .done)
  | .addMapping declaration choice o => w.onBuilder fun b => w.addMapping b declaration choice o
  | .build => w.onBuilder fun b =>
    ({ w with builder := none, container := some b }.note (.line b.readiness), .done)
  | .buildFromConfig c => w.buildFromConfig c
  | .mappings => w.onContainer fun c => (w, .mappings (c.negotiators.entries.map (·.2)))
  | .defaults => w.onContainer fun c => (w, .config c.defaults)
  | .resolve path => w.onContainer fun c => (w, .resolved (c.resolve path))

/-! ### Exchanges -/

/-- Runs an exchange; one that stalls is given up after a while. -/
def runExchange (w : World) (c : Upgrade.Container) (x : Upgrade.Exchange) :
    World × Upgrade.Exchange :=
  let (hub, x) := x.run c w.hub
  let w := { w with hub }
  if x.hasEnded then (w, x)
  else
    let w := w.advance patience
    let (hub, x) := x.abandon w.hub
    ({ w with hub }, x)

def handle (w : World) (name : String) (request : Upgrade.Request) (completedBefore : Bool)
    (c : Upgrade.Container) : World × Reply :=
  let completion : Upgrade.Completion := {}
  let completion := if completedBefore then (completion.fire .succeeded).1 else completion
  let count := w.hub.sessions.length
  let (w, x) := w.runExchange c { request, completion }
  let w := w.holdNewest count name
  let w := if x.completion.cancelsOnDrop then w.note (.line Upgrade.Completion.abandonment) else w
  let fired := x.completion.calls
  (w, .exchange {
    exchange := x
    fired := fired
    firedOnDrop := x.completion.drop.calls.drop fired.length
    session := x.response.session.bind w.hub.session? })

def newSession (w : World) (name path declaration : String) (endpoint : EndpointChoice)
    (config : Config.SessionConfig) (subprotocol : Option String) : World × Reply :=
  match Path.Spec.parse declaration.toList with
  | .error e => (w, .refused (.spec e))
  | .ok spec =>
    match spec.matchPath path.toList with
    | none => (w, .refused .noMatch)
    | some m =>
      let count := w.hub.sessions.length
      let (hub, _) := w.hub.create m config subprotocol
        (endpoint.endpoint w.hub.registry.serial)
      ({ w with hub }.holdNewest count name, .done)

/-! ### The registry -/

def onSession (w : World) (name : String) (f : SessionKey → World × Reply) : World × Reply :=
  match w.session? name with
  | none => (w, .refused .noSession)
  | some key => f key

def onRegistry (w : World) (f : Unit → World × Reply) : World × Reply :=
  if w.registryDropped then (w, .refused .notBuilt) else f ()

def runCalls (w : World) (calls : List Call) : World := { w with hub := w.hub.run calls }

def defineListener (w : World) (l : Session.Listener) (register : Bool) : World :=
  let l := (w.hub.listener? l.name).getD l
  let hub := if (w.hub.listener? l.name).isSome then w.hub
    else { w.hub with cast := w.hub.cast ++ [l] }
  if register then { w with hub := { hub with registry := hub.registry.enlist l } }
  else { w with hub }

def onRegistryStep (w : World) (s : RegistryStep) : World × Reply :=
  w.onRegistry fun _ =>
    match s with
    | .listener l register => (w.defineListener l register, .done)
    | .removeListener name =>
      let (registry, found) := w.hub.registry.dismiss name
      ({ w with hub := { w.hub with registry } }, .flag found)
    | .counts => (w, .registry w.hub.registry)
    | .metrics => (w, .texts w.hub.metrics.lines)
    | .openSession s => w.onSession s fun key => (w.runCalls [.openSession key], .done)
    | .closeSession s => w.onSession s fun key => (w.runCalls [.closeSession key], .done)
    | .report s e => w.onSession s fun key => (w.runCalls [.report key e], .done)
    | .notify s event => w.onSession s fun key =>
      let w := w.runCalls [.notify key event]
      (w, .faults w.hub.lastFaults)
    | .snapshot =>
      (w, .texts ((w.hub.registry.live.map w.nameOf).mergeSort fun a b => decide (a ≤ b)))
    | .get s => w.onSession s fun key =>
      (w, .name (if w.hub.registry.live.contains key then some (w.nameOf key) else none))
    | .closeAll => (w.runCalls [.closeAll []], .count w.hub.registry.live.length)
    | .dropRegistry =>
      ({ w with hub := w.hub.renewRegistry, builder := none, container := none,
                registryDropped := true }, .done)

/-! ### One session -/

/-- Sends the numbers from `next` up until one is refused, and counts those that were not. -/
def sendFrom (h : Hub) (key : SessionKey) (next : Nat) : Nat → Hub × Nat
  | 0 => (h, 0)
  | count + 1 =>
    match h.send key (.text (toString next)) with
    | (h, .ok ()) =>
      let (h, sent) := sendFrom h key (next + 1) count
      (h, sent + 1)
    | (h, .error _) => (h, 0)

def receive (w : World) (name : String) : World × Reply :=
  match w.receivers.lookup name with
  | none => (w, .refused .noSession)
  | some key =>
    match (w.hub.session? key).bind fun s => s.receive.2 with
    | some m => ({ w with hub := w.hub.modify key fun s => s.receive.1 }, .received (some m) false)
    | none => (w, .received none (!w.isHeld key))

def onSessionStep (w : World) (name : String) : SessionStep → World × Reply
  | .receive => w.receive name
  | .dropQueue =>
    match w.receivers.lookup name with
    | none => (w, .flag false)
    | some key =>
      ({ w with
        hub := w.hub.modify key Session.dropQueue
        receivers := w.receivers.filter (·.1 != name) }, .flag true)
  | .forget =>
    ({ w with sessions := w.sessions.filter (·.1 != name) },
      .flag (w.sessions.lookup name).isSome)
  | s => w.onSession name fun key =>
    match s, w.hub.session? key with
    | .info, some s => (w, .session s)
    | .account, some s => (w, .account (s.account name) s.matched)
    | .send m, _ =>
      match w.hub.send key m with
      | (hub, .ok ()) => ({ w with hub }, .done)
      | (hub, .error e) => ({ w with hub }, .refused (.session e))
    | .sendMany count, _ =>
      let (hub, sent) := sendFrom w.hub key 0 count
      ({ w with hub }, .count sent)
    | .takeQueue, some s =>
      if s.takeQueue.2 then
        ({ w with
          hub := w.hub.modify key fun s => s.takeQueue.1
          receivers := (name, key) :: w.receivers.filter (·.1 != name) }, .flag true)
      else (w, .flag false)
    | .closeRequested, some s => (w, .flag s.closeRequested)
    | .requestClose, _ => ({ w with hub := w.hub.modify key Session.requestClose }, .done)
    | .call c, _ =>
      match w.hub.callback key c with
      | (hub, none) => ({ w with hub }, .done)
      | (hub, some _) => ({ w with hub }, .panicked)
    | .watchClose, _ => (w, .done)
    | _, _ => (w, .refused .noSession)

/-! ### Connections -/

def madeUpId : String := "<generated>"

def requestId (r : Http.Request) : String × List UInt8 :=
  match r.headers.first? Http.Request.idHeader with
  | some value => ((Http.valueText? value).getD "unknown", value)
  | none => (madeUpId, Text.bytes madeUpId)

/-- The connection is handed over to a session, if the response reaches the client. -/
def switchProtocols (w : World) (name : String) (key : SessionKey) (r : Http.Response)
    (settings : Http.Settings) (abandon : Bool) : World × Reply :=
  if abandon then
    let hub := w.hub.log .warn "WebSocket upgrade failed"
      [("error", .text Pump.transportWords), ("session_id", .session key)]
    ({ w with hub := hub.closeSession key }, .response none)
  else
    match w.hub.session? key with
    | none => (w, .response none)
    | some s =>
      let client : Client := {
        name := name
        pump := .new key s.config
        limits := ⟨settings.maxFrame, settings.maxMessage⟩ }
      ({ w with clients := w.clients.filter (·.name != name) ++ [client] }, .response (some r))

def connect (w : World) (name : String) (request : Http.Request) (abandon : Bool)
    (c : Upgrade.Container) : World × Reply :=
  let (logId, id) := requestId request
  let finish (r : Http.Response) := (r.withId id).transmit request
  let respond (w : World) (r : Http.Response) : World × Reply :=
    (w, .response (if abandon then none else some (finish r)))
  let count := w.hub.sessions.length
  match Http.answer c w.hub logId request with
  | (hub, .answered (.respond r)) => respond ({ w with hub }.nameNewest count name) r
  | (hub, .answered (.switch r key settings)) =>
    ({ w with hub }.nameNewest count name).switchProtocols name key (finish r) settings abandon
  | (hub, .stalled x) =>
    let w := { w with hub }.advance patience
    let (hub, _) := x.abandon w.hub
    ({ w with hub }, .response none)

def frame (w : World) (name : String) (f : Frame) : World × Reply :=
  match w.client? name with
  | none => (w, .refused .noClient)
  | some c =>
    if c.isClosed || !c.attached then (w, .brokenPipe)
    else
      let (unfinished, inbound) := f.read c.limits c.unfinished
      (w.modifyClient name fun c =>
        { c with unfinished, inbox := c.inbox ++ inbound.toList }, .done)

def hangup (w : World) (name : String) : World × Reply :=
  match w.client? name with
  | none => (w, .flag false)
  | some c =>
    if !c.attached then (w, .flag false)
    else
      (w.modifyClient name fun c =>
        { c with attached := false, pump := { c.pump with writable := false },
                 inbox := c.inbox ++ [.failed] }, .flag true)

def replaceMark (mark text : String) (s : String) : String :=
  text.intercalate (s.splitOn mark)

def admin (w : World) (path : String) (session : Option String) (request : Http.Request)
    (key : String) (c : Upgrade.Container) : World × Reply :=
  let id : Option Session.Id := do
    let (key, _) ← w.names.find? (·.2 == (← session))
    return (← w.hub.session? key).id
  let path := match id with
    | none => path
    | some id =>
      replaceMark "\x7bid\x7d" (String.ofList (Session.Id.Format.uuid.display id))
        (replaceMark "\x7buuid\x7d" (String.ofList (Session.Id.Format.uuid.write id)) path)
  match Http.Uri.parse? path.toList with
  | none => (w, .response (some .unreadable))
  | some target =>
    let request := { request with target }
    let (hub, r) := Http.Admin.answer c w.hub key request
    ({ w with hub }, .response (some ((r.withId (requestId request).2).transmit request)))

def onNetwork (w : World) : NetworkStep → World × Reply
  | .serve key => w.onContainer fun _ => ({ w with adminKey := some key }, .serving key)
  | .connect name request abandon => w.onContainer fun c =>
    match request with
    | none => (w, .response (if abandon then none else some .unreadable))
    | some request => w.connect name request abandon c
  | .frame name f => w.frame name f
  | .hangup name => w.hangup name
  | .sever name =>
    (w.modifyClient name fun c => { c with pump := { c.pump with writable := false } }, .done)
  | .advance secs => (w.advance secs, .done)
  | .admin path session request => w.onContainer fun c =>
    w.admin path session request (w.adminKey.getD "") c

/-- Performs one step, without what the pumps make of it. -/
def perform (w : World) : Step → World × Reply
  | .setup s => w.setup s
  | .handle name request completedBefore => w.onContainer fun c =>
    w.handle name request completedBefore c
  | .newSession name path declaration endpoint config subprotocol =>
    w.newSession name path declaration endpoint config subprotocol
  | .registry s => w.onRegistryStep s
  | .session name s => w.onSessionStep name s
  | .network s => w.onNetwork s
  | .newIds count =>
    (w, .idsMade count ((List.range count).filter fun n =>
      let format := Session.Id.Format.uuid
      format.parse? (format.display (.made n)) == some (.made n)).length)

end World
end Gateway.Scenario
