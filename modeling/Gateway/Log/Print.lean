import Gateway.Document
import Gateway.Log.Line

/-!
Printing log lines: as documents for machines, or as plain text. Whoever prints says how sessions,
addresses and close frames are shown.
-/
namespace Gateway.Log

/-- How a printer names what is not text. -/
structure Names where
  session : SessionKey → String := toString
  address : String := "-"
  closing : Option (Nat × String) → String := fun _ => "-"

def Value.toDocument (n : Names) : Value → Document
  | .text s => .text s
  | .number n => .ofNat n
  | .session key => .text (n.session key)
  | .address => .text n.address
  | .closing said => .text (n.closing said)

def Value.toText (n : Names) : Value → String
  | .text s => s
  | .number n => toString n
  | .session key => n.session key
  | .address => n.address
  | .closing said => n.closing said

namespace Line

def fieldTable (n : Names) (line : Line) : Document :=
  .table (line.fields.map fun (k, v) => (k, v.toDocument n))

/-- A line as a document, with the message among its fields. -/
def toDocument (n : Names) (target : String) (line : Line) : Document := .table [
  ("level", .text line.level.label),
  ("fields", .table (("message", .text line.message)
    :: line.fields.map fun (k, v) => (k, v.toDocument n))),
  ("target", .text target)]

def toText (n : Names) (target : String) (line : Line) : String :=
  " ".intercalate ([line.level.label, target ++ ":", line.message]
    ++ line.fields.map fun (k, v) => k ++ "=" ++ v.toText n)

end Line
end Gateway.Log
