import Gateway.Log.Line
import Gateway.Session.Message

/-!
Listeners: observers of sessions being opened, closed and failing. A listener that fails or
panics harms nobody but itself; the failure is kept as a fault.
-/
namespace Gateway.Session

inductive Event where
  | opened
  | closed
  | failed (e : Error)
  deriving DecidableEq, Repr

inductive EventKind where
  | opened
  | closed
  | failed
  deriving DecidableEq, Repr

def EventKind.label : EventKind → String
  | .opened => "opened"
  | .closed => "closed"
  | .failed => "error"

def Event.kind : Event → EventKind
  | .opened => .opened
  | .closed => .closed
  | .failed _ => .failed

def Event.detail? : Event → Option String
  | .opened | .closed => none
  | .failed e => some e.message

inductive FaultCause where
  | failed (message : String)
  | panicked (message : String)
  deriving DecidableEq, Repr

/-- What a listener does about an event. What is done to a session is done to the one that the event
is about, unless another is named. -/
inductive Reaction where
  | succeed
  | fail (message : String)
  | panic (payload : PanicPayload)
  /-- Succeeds at one time and fails at another: the list has what comes of it each time a wavering
  listener is told of something. Past the end of the list it succeeds. -/
  | waver (outcomes : List (Option FaultCause))
  | takeQueue (other : Option SessionKey)
  | closeSession (other : Option SessionKey)
  | openSession (other : Option SessionKey)
  /-- Closes all sessions, of those that are named the first one first. -/
  | closeAll (first : List SessionKey)
  | requestClose (other : Option SessionKey)
  /-- Sends a text; a refusal is the listener's failure. -/
  | send (other : Option SessionKey) (s : String)
  | enlist (name : String)
  | dismiss (name : String)
  deriving DecidableEq, Repr

structure Listener where
  name : String
  audible : Bool := true
  /-- What it hears is logged, openings and closings as information and failures as warnings. -/
  logs : Bool := false
  opened : Reaction := .succeed
  closed : Reaction := .succeed
  failed : Reaction := .succeed
  deriving DecidableEq, Repr

namespace Listener

def reaction (l : Listener) : EventKind → Reaction
  | .opened => l.opened
  | .closed => l.closed
  | .failed => l.failed

/-- The listener of every server: it keeps the log. -/
def logging : Listener := { name := "", audible := false, logs := true }

end Listener

/-- A listener's failure, with its place among the listeners told. -/
structure Fault where
  index : Nat
  event : EventKind
  cause : FaultCause
  deriving DecidableEq, Repr

def Fault.message (f : Fault) : String :=
  let (how, why) := match f.cause with
    | .failed m => ("failed", m)
    | .panicked m => ("panicked", m)
  "listener #" ++ toString f.index ++ " " ++ how ++ " on " ++ f.event.label ++ " event: " ++ why

end Gateway.Session
