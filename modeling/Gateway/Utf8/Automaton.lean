/-!
The byte automaton behind the streaming decoder. A byte is first folded into one of twelve
classes; the pair of row and class selects the next row. Rows are held premultiplied by twelve,
so that adding a class to a row gives the table index directly.

The automaton judges bytes one at a time. Placeholders, offsets and modes belong to the decoder.
-/
namespace Gateway.Utf8

def acceptRow : UInt8 := 0

/-- The table entry of a byte that cannot continue the sequence. No state ever rests here. -/
def rejectRow : UInt8 := 12

/-- The class of a byte: its place in the grammar of well-formed sequences. Two bytes of one
class are interchangeable in every row. -/
def byteClass (byte : UInt8) : UInt8 :=
  if byte < 0x80 then 0
  else if byte < 0x90 then 1
  else if byte < 0xA0 then 9
  else if byte < 0xC0 then 7
  else if byte < 0xC2 then 8
  else if byte < 0xE0 then 2
  else if byte = 0xE0 then 10
  else if byte < 0xED then 3
  else if byte = 0xED then 4
  else if byte < 0xF0 then 3
  else if byte = 0xF0 then 11
  else if byte < 0xF4 then 6
  else if byte = 0xF4 then 5
  else 8

/-- The next row, at index `row + class`. Nine rows of twelve classes. -/
def transitions : Array UInt8 := #[
  0, 12, 24, 36, 60, 96, 84, 12, 12, 12, 48, 72,
  12, 12, 12, 12, 12, 12, 12, 12, 12, 12, 12, 12,
  12, 0, 12, 12, 12, 12, 12, 0, 12, 0, 12, 12,
  12, 24, 12, 12, 12, 12, 12, 24, 12, 24, 12, 12,
  12, 12, 12, 12, 12, 12, 12, 24, 12, 12, 12, 12,
  12, 24, 12, 12, 12, 12, 12, 12, 12, 24, 12, 12,
  12, 12, 12, 12, 12, 12, 12, 36, 12, 36, 12, 12,
  12, 36, 12, 12, 12, 12, 12, 36, 12, 36, 12, 12,
  12, 36, 12, 12, 12, 12, 12, 12, 12, 12, 12, 12]

/-- The table read at an index. An index outside the table would reject; none is reached. -/
def transition (index : UInt8) : UInt8 := transitions.getD index.toNat rejectRow

def scalar? (n : UInt32) : Option Char :=
  if h : n.isValidChar then some ⟨n, h⟩ else none

inductive Step where
  | accept (c : Char)
  | pending
  /-- The byte cannot stand here; `row` names the row it was rejected from. -/
  | reject (row : UInt8)
  deriving DecidableEq, Repr

/-- The only thing carried between bytes: the row, and the bits of the code point so far. -/
structure State where
  row : UInt8 := acceptRow
  codepoint : UInt32 := 0
  deriving DecidableEq, Repr, Inhabited

namespace State

def start : State := {}

def isAccept (s : State) : Bool := s.row == acceptRow

/-- The row as diagnostics count it, `0` being the accepting one. -/
def rowNumber (s : State) : UInt8 := s.row / 12

/-- The code point after a byte: a lead byte contributes the bits its class leaves, a
continuation byte its low six. -/
def accumulate (s : State) (byte : UInt8) : UInt32 :=
  if s.isAccept then ((0xFF : UInt32) >>> (byteClass byte).toUInt32) &&& byte.toUInt32
  else (byte.toUInt32 &&& (0x3F : UInt32)) ||| (s.codepoint <<< (6 : UInt32))

/-- One byte. An ASCII byte between characters skips the table. The code point is kept after a
character and cleared after a rejection. -/
def step (s : State) (byte : UInt8) : State × Step :=
  if byte < 0x80 && s.isAccept then
    ({ s with codepoint := 0 }, .accept (Char.ofUInt8 byte))
  else
    let codepoint := s.accumulate byte
    let next := transition (s.row + byteClass byte)
    if next = acceptRow then
      match scalar? codepoint with
      | some c => ({ row := acceptRow, codepoint }, .accept c)
      | none => (start, .reject s.rowNumber)
    else if next = rejectRow then (start, .reject s.rowNumber)
    else ({ row := next, codepoint }, .pending)

def run (s : State) (bytes : List UInt8) : State :=
  bytes.foldl (fun s b => (s.step b).1) s

end State
end Gateway.Utf8
