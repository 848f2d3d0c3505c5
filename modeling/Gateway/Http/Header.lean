import Gateway.Text.Blank
import Gateway.Text.Bytes

/-!
Header fields. A name is a token and is held in lower case; a value is a list of bytes without
controls. Fields of one name keep the order in which they were appended.
-/
namespace Gateway.Http

structure Field where
  name : String
  value : List UInt8
  deriving DecidableEq, Repr

def isTokenChar (c : Char) : Bool := c.isAlphanum || "!#$%&'*+-.^_|~\x60".toList.contains c

/-- A byte that a value may hold: anything but controls, the tab excepted. -/
def isValueByte (b : UInt8) : Bool := (0x20 ≤ b && b != 0x7F) || b == 0x09

def isTextByte (b : UInt8) : Bool := (0x20 ≤ b && b < 0x7F) || b == 0x09

def fieldName? (s : String) : Option String :=
  if s ≠ "" ∧ s.toList.all isTokenChar then some (s.map Char.toLower) else none

def fieldValue? (bytes : List UInt8) : Option (List UInt8) :=
  if bytes.all isValueByte then some bytes else none

/-- A value without spaces and tabs at its ends, as it is read off the wire. -/
def trimValue (bytes : List UInt8) : List UInt8 :=
  Text.trimBy (fun b => b == 0x20 || b == 0x09) bytes

def valueText? (bytes : List UInt8) : Option String :=
  if bytes.all isTextByte then some (String.ofList (bytes.map Char.ofUInt8)) else none

/-- Header fields in the order in which they were appended. -/
structure Headers where
  fields : List Field := []
  deriving DecidableEq, Repr, Inhabited

namespace Headers

def size (h : Headers) : Nat := h.fields.length

def append (h : Headers) (f : Field) : Headers := ⟨h.fields ++ [f]⟩

def valuesOf (h : Headers) (name : String) : List (List UInt8) :=
  (h.fields.filter (·.name == name.map Char.toLower)).map Field.value

def first? (h : Headers) (name : String) : Option (List UInt8) := (h.valuesOf name).head?

/-- The first value of a name, if it can be read as text. -/
def text? (h : Headers) (name : String) : Option String := (h.first? name).bind valueText?

def contains (h : Headers) (name : String) : Bool := (h.first? name).isSome

/-- The fields with those of one name together, in the order of the names' first fields. -/
def grouped (h : Headers) : List Field :=
  (h.fields.map Field.name).eraseDups.flatMap fun name => h.fields.filter (·.name == name)

/-- Lays headers over others: a name given in the second list loses its fields in the first. -/
def extend (h other : Headers) : Headers :=
  ⟨h.fields.filter (fun f => !other.fields.any (·.name == f.name)) ++ other.fields⟩

end Headers
end Gateway.Http
