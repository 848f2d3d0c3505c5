import Gateway.Session.Assembler

/-!
Frames from a client, and the messages they make up. Data may come in one frame or in fragments;
control frames may come between fragments and are never fragmented. Anything against the rules
ends the connection at once.
-/
namespace Gateway.Connection

structure Frame where
  opcode : Nat
  final : Bool := true
  masked : Bool := true
  payload : List UInt8
  deriving DecidableEq, Repr

inductive Inbound where
  | text (s : String)
  | binary (bytes : List UInt8)
  | ping (payload : List UInt8)
  | pong
  | close (said : Option (Nat × String))
  | failed
  | ended
  /-- Nothing has come for as long as is allowed. -/
  | idle
  deriving DecidableEq, Repr

structure Limits where
  frame : Nat
  message : Nat
  deriving DecidableEq, Repr

inductive Unfinished where
  | text (decoder : Utf8.Decoder String) (size : Nat)
  | binary (bytes : List UInt8)
  deriving DecidableEq, Repr

def wholeText? (bytes : List UInt8) : Option String :=
  match (Utf8.Decoder.new String).feed bytes with
  | (d, .ok ()) => if d.isSequenceComplete then some d.text else none
  | (_, .error _) => none

/-- What a peer says when it closes, if its frame is well formed: it holds nothing, or a code of two
bytes and a reason. -/
def closing? : List UInt8 → Option (Option (Nat × String))
  | [] => some none
  | [_] => none
  | high :: low :: reason =>
    (wholeText? reason).map fun text => some (256 * high.toNat + low.toNat, text)

/-- What a connection has read so far of a message, and what the last frame gave. -/
abbrev Reading := Option Unfinished × Option Inbound

def readControl (unfinished : Option Unfinished) (f : Frame) : Reading :=
  if !f.final || 125 < f.payload.length then (unfinished, some .failed)
  else if f.opcode = 8 then
    (unfinished, some (((closing? f.payload).map Inbound.close).getD .failed))
  else if f.opcode = 9 then (unfinished, some (.ping f.payload))
  else if f.opcode = 10 then (unfinished, some .pong)
  else (unfinished, some .failed)

/-- The next fragment of a text. Bytes that cannot be text are refused at once. -/
def readText (limit : Nat) (decoder : Utf8.Decoder String) (size : Nat) (f : Frame) : Reading :=
  if limit < size + f.payload.length then (none, some .failed)
  else
    match decoder.feed f.payload with
    | (_, .error _) => (none, some .failed)
    | (d, .ok ()) =>
      if !f.final then (some (.text d (size + f.payload.length)), none)
      else if d.isSequenceComplete then (none, some (.text d.text))
      else (none, some .failed)

def readBinary (limit : Nat) (bytes : List UInt8) (f : Frame) : Reading :=
  if limit < bytes.length + f.payload.length then (none, some .failed)
  else if f.final then (none, some (.binary (bytes ++ f.payload)))
  else (some (.binary (bytes ++ f.payload)), none)

/-- Reads one frame. A fragment gives nothing until its message is whole. -/
def Frame.read (limits : Limits) (unfinished : Option Unfinished) (f : Frame) : Reading :=
  if !f.masked || limits.frame < f.payload.length then (unfinished, some .failed)
  else if 8 ≤ f.opcode then readControl unfinished f
  else
    match f.opcode, unfinished with
    | 0, some (.text d size) => readText limits.message d size f
    | 0, some (.binary bytes) => readBinary limits.message bytes f
    | 1, none => readText limits.message (.new String) 0 f
    | 2, none => readBinary limits.message [] f
    | _, _ => (unfinished, some .failed)

end Gateway.Connection
