import Gateway.Log.Line
import Gateway.Text.Quoted

/-!
The completion of an exchange: a signal shared by any number of handles. It fires once, at the
first success or failure reported on any handle, or as cancelled when the last handle is dropped.
Firing again is refused.
-/
namespace Gateway.Upgrade

inductive CreatorError where
  | because (message : String)
  | alreadyCompleted
  | badHeaderName
  | badHeaderValue
  deriving DecidableEq, Repr

namespace CreatorError

def message : CreatorError → String
  | .because m => m
  | .alreadyCompleted => "exchange already completed"
  | .badHeaderName => "invalid HTTP header name"
  | .badHeaderValue => "failed to parse header value"

/-- The error as a log line shows it: a plain message in quotes, another cause by its name. -/
def shown : CreatorError → String
  | .because m => Text.Quoted.ofString m
  | .alreadyCompleted => "AlreadyCompleted"
  | .badHeaderName => "InvalidHeaderName"
  | .badHeaderValue => "InvalidHeaderValue"

end CreatorError

inductive NegotiationError where
  | creator (source : CreatorError)
  | panicked (message : String)
  | cancelled
  deriving DecidableEq, Repr

namespace NegotiationError

def message : NegotiationError → String
  | .creator source => "WebSocket creator failed: " ++ source.message
  | .panicked m => "WebSocket creator panicked: " ++ m
  | .cancelled => "negotiation cancelled before completion"

def shown : NegotiationError → String
  | .creator source => "Creator(" ++ source.shown ++ ")"
  | .panicked m => "Panicked(" ++ Text.Quoted.ofString m ++ ")"
  | .cancelled => "Cancelled"

end NegotiationError

inductive Outcome where
  | succeeded
  | failed (e : NegotiationError)
  deriving DecidableEq, Repr

def Outcome.shown : Outcome → String
  | .succeeded => "Ok(())"
  | .failed e => "Err(" ++ e.shown ++ ")"

/-- The signal behind the handles of one exchange. -/
structure Completion where
  armed : Bool := true
  handles : Nat := 1
  calls : List Outcome := []
  deriving DecidableEq, Repr, Inhabited

namespace Completion

def isCompleted (c : Completion) : Bool := !c.armed

/-- Reports an outcome on a handle; `false` says that the signal had fired before. -/
def fire (c : Completion) (o : Outcome) : Completion × Bool :=
  if c.armed then ({ c with armed := false, calls := c.calls ++ [o] }, true) else (c, false)

def refusal (o : Outcome) : Log.Line :=
  ⟨.error, "Completion fired more than once", [("outcome", .text o.shown)]⟩

def clone (c : Completion) : Completion := { c with handles := c.handles + 1 }

/-- The handle given up is the last one, and nothing was reported. -/
def cancelsOnDrop (c : Completion) : Bool := c.handles == 1 && c.armed

/-- Gives up a handle. Giving up the last one cancels a signal that has not fired. -/
def drop (c : Completion) : Completion :=
  let c' := { c with handles := c.handles - 1 }
  if c.cancelsOnDrop then (c'.fire (.failed .cancelled)).1 else c'

def abandonment : Log.Line :=
  ⟨.debug, "Completion dropped before firing, failing exchange", []⟩

def summary (c : Completion) : String :=
  "Completion \x7b completed: " ++ (if c.isCompleted then "true" else "false") ++ " \x7d"

end Completion
end Gateway.Upgrade
