/-!
Log lines as data: a level, a message and named fields. A session is named by its key and is
rendered by whoever prints the line.
-/
namespace Gateway

/-- A session's place among all sessions ever made. Keys are never reused. -/
abbrev SessionKey := Nat

namespace Log

inductive Level where
  | trace
  | debug
  | info
  | warn
  | error
  deriving DecidableEq, Repr

namespace Level

def label : Level → String
  | .trace => "TRACE"
  | .debug => "DEBUG"
  | .info => "INFO"
  | .warn => "WARN"
  | .error => "ERROR"

/-- How severe a level is; a filter lets a line through from its own severity upwards. -/
def severity : Level → Nat
  | .trace => 0
  | .debug => 1
  | .info => 2
  | .warn => 3
  | .error => 4

end Level

inductive Value where
  | text (s : String)
  | number (n : Nat)
  | session (key : SessionKey)
  | address
  | closing (said : Option (Nat × String))
  deriving DecidableEq, Repr

structure Line where
  level : Level
  message : String
  fields : List (String × Value) := []
  deriving DecidableEq, Repr

namespace Line

def session? (line : Line) : Option SessionKey :=
  line.fields.findSome? fun
    | (_, .session key) => some key
    | _ => none

end Line
end Log
end Gateway
