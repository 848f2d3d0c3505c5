import Gateway.Log.Line
import Gateway.Utf8.Decoder

/-!
A decoder driven by a list of operations, with the answer and the log lines of each. The answers
are those of the operations themselves; this module adds no rule of its own.
-/
namespace Gateway.Utf8

inductive Op where
  | byte (b : UInt8)
  | feed (bytes : List UInt8)
  | feedLimited (limit : Nat) (bytes : List UInt8)
  | append (cs : List Char)
  | finish
  | checkState
  | reset
  | partialText
  | takeText
  | replacedText
  | setStrict (strict : Bool)
  deriving DecidableEq, Repr

inductive Reply where
  | done
  | failed (e : Error)
  | event (ev : DecodeEvent)
  | withinLimit (within : Bool)
  | text (s : String)
  deriving DecidableEq, Repr

/-- Lenient mode logs each placeholder and each folded byte; strict mode returns them instead. -/
def DecodeEvent.logLine? : DecodeEvent → Option Log.Line
  | .invalid e => some ⟨.debug, "Replaced invalid UTF-8 byte", [("error", .text e.message)]⟩
  | .folded e => some ⟨.trace, "Folded stray continuation byte", [("error", .text e.message)]⟩
  | .emit _ | .needMore => none

def logLines (events : List (Except Error DecodeEvent)) : List Log.Line :=
  events.filterMap fun
    | .ok ev => ev.logLine?
    | .error _ => none

namespace Reply

def ofUnit : Except Error Unit → Reply
  | .ok () => .done
  | .error e => .failed e

def ofEvent : Except Error DecodeEvent → Reply
  | .ok ev => .event ev
  | .error e => .failed e

def ofBool : Except Error Bool → Reply
  | .ok b => .withinLimit b
  | .error e => .failed e

end Reply

namespace Decoder
variable {σ : Type} [Sink σ]

def finishLog (d : Decoder σ) : List Log.Line :=
  if d.state.isAccept || d.strict then []
  else [⟨.debug, "Replaced truncated UTF-8 sequence", [("error", .text d.truncation.message)]⟩]

/-- A sequence that rendering cut off, in either mode. -/
def replacedTextLog (d : Decoder σ) : List Log.Line :=
  if d.state.isAccept then []
  else [⟨.warn, "Unable to get replacement string", [("error", .text d.truncation.message)]⟩]

def perform (d : Decoder σ) : Op → Decoder σ × Reply × List Log.Line
  | .byte b =>
    let (d', r) := d.decodeByte b
    (d', .ofEvent r, logLines [r])
  | .feed bytes =>
    let (d', r) := d.feed bytes
    (d', .ofUnit r, logLines (d.feedEvents bytes))
  | .feedLimited limit bytes =>
    let (d', r) := d.feedLimited limit bytes
    (d', .ofBool r, logLines (d.feedLimitedEvents limit bytes))
  | .append cs =>
    let (d', r) := d.append cs
    (d', .ofUnit r, [])
  | .finish =>
    let (d', r) := d.finish
    (d', .ofUnit r, d.finishLog)
  | .checkState =>
    let (d', r) := d.checkState
    (d', .ofUnit r, d.finishLog)
  | .reset => (d.reset, .done, [])
  | .partialText => (d, .text d.text, [])
  | .takeText =>
    let (d', s) := d.takeText
    (d', .text s, [])
  | .replacedText =>
    let (d', s) := d.replacedText
    (d', .text s, d.replacedTextLog)
  | .setStrict strict => (d.setStrict strict, .done, [])

/-- Performs a list of calls; the list answered pairs each reply with the decoder it left. -/
def performAll (d : Decoder σ) : List Op → Decoder σ × List (Reply × Decoder σ × List Log.Line)
  | [] => (d, [])
  | op :: rest =>
    let (d', reply, log) := d.perform op
    let (last, answers) := d'.performAll rest
    (last, (reply, d', log) :: answers)

end Decoder
end Gateway.Utf8
