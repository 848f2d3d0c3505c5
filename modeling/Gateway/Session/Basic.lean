import Gateway.Config.Session
import Gateway.Path.Match
import Gateway.Session.Endpoint
import Gateway.Session.Id
import Gateway.Text.Quoted

/-!
One session: its identity and policy, which never change, its phase, the queue of messages for
the peer, and the wish to close. A session is created, may be opened once, and is closed for good.
-/
namespace Gateway

namespace Session

inductive Phase where
  | created
  | opened
  | closed
  deriving DecidableEq, Repr

def Phase.label : Phase → String
  | .created => "created"
  | .opened => "open"
  | .closed => "closed"

def Phase.title : Phase → String
  | .created => "Created"
  | .opened => "Open"
  | .closed => "Closed"

/-- Who holds the receiving end of the queue. It is handed over once. -/
inductive Holder where
  | session
  | writer
  /-- The receiving end is gone, and with it what was queued. -/
  | nobody
  deriving DecidableEq, Repr

/-- Messages a queue takes before sends fail. -/
def queueCapacity : Nat := 1024

end Session

structure Session where
  id : Session.Id
  matched : Path.Match
  config : Config.SessionConfig
  subprotocol : Option String
  endpoint : Session.Endpoint
  phase : Session.Phase := .created
  queue : List Session.Message := []
  holder : Session.Holder := .session
  closeRequested : Bool := false
  heard : List Session.Callback := []

namespace Session

def messageCeiling (c : Config.SessionConfig) : Message → Nat
  | .text _ => c.maxTextMessageSize
  | .binary _ => c.maxBinaryMessageSize

/-- The ceiling for sending. Unless messages may be split, one must fit into a frame. -/
def sendLimit (c : Config.SessionConfig) (m : Message) : Nat :=
  if c.autoFragment then messageCeiling c m else min (messageCeiling c m) c.maxFrameSize

def sendError? (s : Session) (m : Message) : Option Error :=
  if sendLimit s.config m < m.size then some (.messageTooLarge (sendLimit s.config m))
  else if s.phase = .closed then some .closed
  else if s.holder = .nobody then some .closed
  else if queueCapacity ≤ s.queue.length then some (.queueFull queueCapacity)
  else none

/-- Queues a message for the peer. A refused message changes nothing. -/
def send (s : Session) (m : Message) : Session × Except Error Unit :=
  match s.sendError? m with
  | some e => (s, .error e)
  | none => ({ s with queue := s.queue ++ [m] }, .ok ())

/-- Hands over the receiving end of the queue. Only the first caller gets it. -/
def takeQueue (s : Session) : Session × Bool :=
  match s.holder with
  | .session => ({ s with holder := .writer }, true)
  | .writer | .nobody => (s, false)

def dropQueue (s : Session) : Session := { s with holder := .nobody, queue := [] }

def receive (s : Session) : Session × Option Message :=
  match s.queue with
  | [] => (s, none)
  | m :: rest => ({ s with queue := rest }, some m)

def requestClose (s : Session) : Session := { s with closeRequested := true }

/-- The first opening of a created session; no other takes effect. -/
def markOpen (s : Session) : Session × Bool :=
  match s.phase with
  | .created => ({ s with phase := .opened }, true)
  | .opened | .closed => (s, false)

/-- Closes, and says whether this was the first time. -/
def markClosed (s : Session) : Session × Bool :=
  ({ s with phase := .closed }, s.phase ≠ .closed)

/-- Two sessions are in one room when both path and path spec agree. -/
def sharesRoom (s t : Session) : Bool :=
  s.matched.path = t.matched.path ∧ s.matched.spec = t.matched.spec

def path (s : Session) : String := String.ofList s.matched.path

def pathSpec (s : Session) : String := s.matched.spec.toString

end Session
end Gateway
