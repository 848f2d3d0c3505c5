import Gateway.Session.Message

/-!
Endpoints: the application's side of a session. An endpoint answers each callback with a list of
acts, which the session carries out in order until one panics. The answer may depend on the
callbacks the endpoint has had before.
-/
namespace Gateway.Session

inductive Callback where
  | opened
  | text (s : String)
  | binary (bytes : List UInt8)
  | failed (e : Error)
  | closed
  deriving DecidableEq, Repr

inductive CallbackKind where
  | opened
  | text
  | binary
  | failed
  | closed
  deriving DecidableEq, Repr

def CallbackKind.label : CallbackKind → String
  | .opened => "open"
  | .text => "text"
  | .binary => "binary"
  | .failed => "error"
  | .closed => "close"

namespace Callback

def kind : Callback → CallbackKind
  | .opened => .opened
  | .text _ => .text
  | .binary _ => .binary
  | .failed _ => .failed
  | .closed => .closed

def detail? : Callback → Option String
  | .opened | .closed => none
  | .text s => some s
  | .binary bytes => some (toString bytes.length ++ " bytes")
  | .failed e => some e.message

end Callback

/-- Where a send that failed is put on record. -/
inductive Complaint where
  | logged
  | journaled
  deriving DecidableEq, Repr

inductive Act where
  | record
  | send (m : Message) (complaint : Complaint)
  /-- Sends the numbers from zero up, as many as stated, until one send fails. -/
  | flood (count : Nat)
  /-- Logs how many members the session's room has. Rooms belong to one registry. -/
  | countRoom (registry : Nat)
  | broadcast (registry : Nat) (s : String)
  | requestClose
  | panic (payload : PanicPayload)
  deriving DecidableEq, Repr

/-- An endpoint's answer to a callback, after those it has had before. -/
structure Endpoint where
  react : List Callback → Callback → List Act

namespace Endpoint

def noop : Endpoint := ⟨fun _ _ => []⟩

def echo : Endpoint := ⟨fun _ callback =>
  match callback with
  | .text s => [.send (.text s) .logged]
  | .binary bytes => [.send (.binary bytes) .logged]
  | _ => []⟩

/-- Passes every text on to the other sessions of the same path and path spec that are live in a
registry. -/
def chat (registry : Nat) : Endpoint := ⟨fun _ callback =>
  match callback with
  | .opened => [.countRoom registry]
  | .text s => [.broadcast registry s]
  | _ => []⟩

end Endpoint
end Gateway.Session
