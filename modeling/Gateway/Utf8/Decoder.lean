import Gateway.Utf8.Automaton
import Gateway.Utf8.Error
import Gateway.Utf8.Sink

/-!
The streaming decoder. Bytes may arrive in any chunking; between calls the decoder carries the
automaton state, the byte offset, and whether it is still inside a replaced run. Every malformed
sequence leaves one placeholder. Strict mode also returns the failure, after the placeholder is
written; lenient mode goes on, and lets continuation bytes right after a rejected byte share its
placeholder.

Every operation returns the decoder it leaves behind, on failure too.
-/
namespace Gateway.Utf8

/-- What one byte produced. The last two arise in lenient mode only. -/
inductive DecodeEvent where
  | emit (c : Char)
  | needMore
  | invalid (e : Error)
  /-- A stray continuation byte that shares the placeholder already appended. -/
  | folded (e : Error)
  deriving DecidableEq, Repr

structure Decoder (σ : Type) where
  sink : σ
  state : State := .start
  strict : Bool := true
  offset : Nat := 0
  /-- The last byte was rejected and nothing has ended the run since. -/
  replacing : Bool := false
  deriving DecidableEq, Repr

def isContinuation (byte : UInt8) : Bool := byte &&& 0xC0 == 0x80

namespace Decoder
variable {σ : Type} [Sink σ]

def new (σ : Type) [Sink σ] : Decoder σ := { sink := Sink.empty }

def lenient (σ : Type) [Sink σ] : Decoder σ := { sink := Sink.empty, strict := false }

def size (d : Decoder σ) : Nat := Sink.size d.sink

def text (d : Decoder σ) : String := Sink.text d.sink

def isSequenceComplete (d : Decoder σ) : Bool := d.state.isAccept

def setStrict (d : Decoder σ) (strict : Bool) : Decoder σ := { d with strict }

/-- Feeds one byte. A rejected byte is consumed, so the decoder cannot get stuck. -/
def decodeByte (d : Decoder σ) (byte : UInt8) : Decoder σ × Except Error DecodeEvent :=
  let seen := { d with offset := d.offset + 1 }
  if d.replacing && !d.strict && isContinuation byte then
    (seen, .ok (.folded (.invalidByte byte d.offset d.state.rowNumber)))
  else
    match d.state.step byte with
    | (state, .accept c) =>
      ({ seen with state, replacing := false, sink := Sink.push d.sink c }, .ok (.emit c))
    | (state, .pending) => ({ seen with state, replacing := false }, .ok .needMore)
    | (state, .reject row) =>
      let e := Error.invalidByte byte d.offset row
      ({ seen with state, replacing := true, sink := Sink.push d.sink replacement },
        if d.strict then .error e else .ok (.invalid e))

/-- Feeds bytes in order. Strict mode stops at the first failure and leaves the rest unread. -/
def feed (d : Decoder σ) : List UInt8 → Decoder σ × Except Error Unit
  | [] => (d, .ok ())
  | b :: rest =>
    match d.decodeByte b with
    | (d, .ok _) => d.feed rest
    | (d, .error e) => (d, .error e)

def feedEvents (d : Decoder σ) : List UInt8 → List (Except Error DecodeEvent)
  | [] => []
  | b :: rest =>
    match d.decodeByte b with
    | (d, .ok ev) => .ok ev :: d.feedEvents rest
    | (_, .error e) => [.error e]

/-- Feeds bytes while the sink holds at most `limit` units. `false` says that it holds more; the
rest is then unread. -/
def feedLimited (d : Decoder σ) (limit : Nat) : List UInt8 → Decoder σ × Except Error Bool
  | [] => (d, .ok (decide (d.size ≤ limit)))
  | b :: rest =>
    if limit < d.size then (d, .ok false)
    else
      match d.decodeByte b with
      | (d, .ok _) => d.feedLimited limit rest
      | (d, .error e) => (d, .error e)

def feedLimitedEvents (d : Decoder σ) (limit : Nat) : List UInt8 → List (Except Error DecodeEvent)
  | [] => []
  | b :: rest =>
    if limit < d.size then []
    else
      match d.decodeByte b with
      | (d, .ok ev) => .ok ev :: d.feedLimitedEvents limit rest
      | (_, .error e) => [.error e]

def replacePending (d : Decoder σ) : Decoder σ :=
  { d with state := .start, sink := Sink.push d.sink replacement }

/-- Cuts a pending sequence short, before text is appended behind it. -/
def interruptPending (d : Decoder σ) : Decoder σ × Except Error Unit :=
  let d := { d with replacing := false }
  if d.state.isAccept then (d, .ok ())
  else
    (d.replacePending,
      if d.strict then .error (.interruptedSequence d.state.rowNumber) else .ok ())

/-- Appends characters that need no decoding. A failure leaves them unappended. -/
def append (d : Decoder σ) (cs : List Char) : Decoder σ × Except Error Unit :=
  match d.interruptPending with
  | (d, .ok ()) => ({ d with sink := Sink.pushAll d.sink cs }, .ok ())
  | (d, .error e) => (d, .error e)

def truncation (d : Decoder σ) : Error := .incompleteSequence d.offset d.state.rowNumber

/-- Resolves the end of input. Afterwards nothing is pending. -/
def finish (d : Decoder σ) : Decoder σ × Except Error Unit :=
  let d := { d with replacing := false }
  if d.state.isAccept then (d, .ok ())
  else (d.replacePending, if d.strict then .error d.truncation else .ok ())

/-- The failure that whole bytes end in, if they are to be valid. -/
def failure? (σ : Type) [Sink σ] (bytes : List UInt8) : Option Error :=
  match (new σ).feed bytes with
  | (_, .error e) => some e
  | (d, .ok ()) =>
    match d.finish with
    | (_, .error e) => some e
    | (_, .ok ()) => none

/-- Resolves a frame boundary, in the same way as the end of input. -/
def checkState (d : Decoder σ) : Decoder σ × Except Error Unit := d.finish

/-- Drops any partial sequence and restarts the offset. Decoded text stays. -/
def reset (d : Decoder σ) : Decoder σ :=
  { d with state := .start, offset := 0, replacing := false }

/-- The text decoded so far, and a decoder with an empty sink. A pending sequence stays pending. -/
def takeText (d : Decoder σ) : Decoder σ × String :=
  ({ d with sink := Sink.empty }, d.text)

/-- The text with a truncated tail replaced. Never fails, in either mode. -/
def replacedText (d : Decoder σ) : Decoder σ × String :=
  let d := if d.state.isAccept then d else d.replacePending
  (d, d.text)

end Decoder
end Gateway.Utf8
