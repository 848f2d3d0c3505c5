import Gateway.Connection.Run
import Gateway.Http.Admin
import Gateway.Http.Upgrade
import Gateway.Account
import Gateway.Startup

/-!
The world of a scenario: a server with clients on in-memory connections and a clock that moves only
when told to. Sessions go by names that the scenario gives them. Everything is done on one
thread: after each step, pumps run until all of them wait.
-/
namespace Gateway.Scenario

open Connection

structure Client where
  name : String
  pump : Pump
  limits : Limits
  unfinished : Option Unfinished := none
  inbox : List Inbound := []
  attached : Bool := true
  /-- How many of the frames written to it the client has read. -/
  read : Nat := 0
  sawEnd : Bool := false

inductive Received where
  | frame (o : Outgoing)
  | eof
  deriving DecidableEq, Repr

structure World where
  hub : Hub := {}
  /-- The container while it is set up; none once it is built. -/
  builder : Option Upgrade.Container := some {}
  container : Option Upgrade.Container := none
  /-- Sessions that the scenario holds, by name, until it forgets them. -/
  sessions : List (String × SessionKey) := []
  /-- Sessions that a connection made, by name. The scenario only looks them up. -/
  served : List (String × SessionKey) := []
  /-- Names of sessions, also of forgotten ones. -/
  names : List (SessionKey × String) := []
  receivers : List (String × SessionKey) := []
  clients : List Client := []
  adminKey : Option String := none
  /-- The registry has been dropped, and with it builder and container. -/
  registryDropped : Bool := false

namespace Client

/-- The pump has ended, so the server's side is closed. -/
def isClosed (c : Client) : Bool := c.pump.hasEnded

def unread (c : Client) : List Received :=
  if !c.attached then []
  else (c.pump.written.drop c.read).map .frame
    ++ if c.isClosed && !c.sawEnd then [.eof] else []

def catchUp (c : Client) : Client :=
  { c with read := c.pump.written.length, sawEnd := c.sawEnd || c.isClosed }

end Client

namespace World

def note (w : World) (e : Entry) : World := { w with hub := w.hub.note e }

def nameOf (w : World) (key : SessionKey) : String := (w.names.lookup key).getD "?"

/-- The session of a name: one that the scenario holds, or one that is served and live. -/
def session? (w : World) (name : String) : Option SessionKey :=
  w.sessions.lookup name
    <|> (w.served.lookup name).filter fun key => w.hub.registry.live.contains key

def holdNewest (w : World) (count : Nat) (name : String) : World :=
  if w.hub.sessions.length ≤ count then w
  else { w with
    sessions := (name, count) :: w.sessions.filter (·.1 != name)
    names := (count, name) :: w.names }

def nameNewest (w : World) (count : Nat) (name : String) : World :=
  if w.hub.sessions.length ≤ count then w
  else { w with
    served := (name, count) :: w.served
    names := (count, name) :: w.names }

def settleClient (h : Hub) (c : Client) : Hub × Client :=
  if c.isClosed then (h, { c with inbox := [] })
  else
    let (h, pump) := c.pump.run h c.inbox
    (h, { c with pump, inbox := [] })

def settleOnce (h : Hub) : List Client → Hub × List Client
  | [] => (h, [])
  | c :: rest =>
    let (h, c) := settleClient h c
    let (h, rest) := settleOnce h rest
    (h, c :: rest)

def settleRounds : Nat → Hub → List Client → Hub × List Client
  | 0, h, clients => (h, clients)
  | rounds + 1, h, clients =>
    let (h, clients) := settleOnce h clients
    settleRounds rounds h clients

/-- Lets all pumps run until they wait. A pump makes work for others when it takes up input and
when it ends, so there are no more rounds than clients, and two. -/
def settle (w : World) : World :=
  let (hub, clients) := settleRounds (w.clients.length + 2) w.hub w.clients
  { w with hub, clients }

def modifyClient (w : World) (name : String) (f : Client → Client) : World :=
  { w with clients := w.clients.map fun c => if c.name = name then f c else c }

def client? (w : World) (name : String) : Option Client := w.clients.find? (·.name == name)

def nextDeadline? (w : World) (horizon : Nat) : Option Nat :=
  (w.clients.filterMap fun c =>
    if c.pump.stage = .waiting then c.pump.deadline.filter (· ≤ horizon) else none).min?

def wake (w : World) (now : Nat) : World :=
  let due (c : Client) : Bool := c.pump.stage = .waiting && c.pump.deadline == some now
  { w with
    hub := { w.hub with clock := now }
    clients := w.clients.map fun c => if due c then { c with inbox := c.inbox ++ [.idle] } else c }

/-- Moves the clock on, from one end of a wait to the next. Each of them ends a pump. -/
def advanceFor : Nat → World → Nat → World
  | 0, w, horizon => { w with hub := { w.hub with clock := horizon } }
  | fuel + 1, w, horizon =>
    match w.nextDeadline? horizon with
    | none => { w with hub := { w.hub with clock := horizon } }
    | some now => advanceFor fuel (w.wake now).settle horizon

def advance (w : World) (secs : Nat) : World :=
  advanceFor (w.clients.length + 1) w (w.hub.clock + secs)

def patience : Nat := 1

/-- A session is kept alive by who holds it, by being live, or by being served. -/
def isHeld (w : World) (key : SessionKey) : Bool :=
  w.sessions.any (·.2 == key) || w.hub.registry.live.contains key
    || w.clients.any fun c => c.pump.key == key && !c.isClosed

end World
end Gateway.Scenario
