import Gateway.Proofs.Utf8.Draining
import Gateway.Utf8.Script
import Mathlib.Data.List.Forall2

/-!
One decoder, two ways to hold its text. A decoder learns nothing from its sink but the limit that
`feedLimited` sets, so sinks that render alike cannot be told apart by any other operation. Text
held as bytes and text held as 16-bit units are such sinks: the units are always those of the text.
-/
namespace Gateway.Utf8

/-- A way to turn sinks of one kind into sinks of another that render the same. -/
structure Sink.Renders {σ τ : Type} [Sink σ] [Sink τ] (f : σ → τ) : Prop where
  empty : f empty = empty
  push (s : σ) (c : Char) : f (push s c) = push (f s) c
  text (s : σ) : text (f s) = text s

theorem Sink.Renders.pushAll {σ τ : Type} [Sink σ] [Sink τ] {f : σ → τ} (renders : Renders f)
    (s : σ) (cs : List Char) : f (Sink.pushAll s cs) = Sink.pushAll (f s) cs := by
  induction cs generalizing s with
  | nil => rfl
  | cons c cs ih =>
      have first : Sink.pushAll s (c :: cs) = Sink.pushAll (Sink.push s c) cs := rfl
      rw [first, ih, renders.push]
      rfl

/-- Not the operation whose outcome is up to the units of the sink. -/
def Op.IsUnlimited : Op → Prop
  | .feedLimited _ _ => False
  | _ => True

namespace Decoder
variable {σ τ : Type} [Sink σ] [Sink τ]

def view (f : σ → τ) (d : Decoder σ) : Decoder τ := d.withSink (f d.sink)

section Renders
variable {f : σ → τ} (renders : Sink.Renders f)
include renders

theorem view_decodeByte (d : Decoder σ) (b : UInt8) :
    (d.view f).decodeByte b = ((d.decodeByte b).1.view f, (d.decodeByte b).2) := by
  have sink : (d.decodeByte b).1.sink = Sink.pushAll d.sink (addedBy (d.decodeByte b).2) :=
    congrArg (fun r => r.1.sink) (decodeByte_withSink d d.sink b)
  rw [view, decodeByte_withSink, view, sink, renders.pushAll]

theorem view_feed (d : Decoder σ) (bytes : List UInt8) :
    (d.view f).feed bytes = ((d.feed bytes).1.view f, (d.feed bytes).2)
      ∧ (d.view f).feedEvents bytes = d.feedEvents bytes := by
  obtain ⟨fed, events⟩ := feed_withSink d (f d.sink) bytes
  have sink : (d.feed bytes).1.sink = Sink.pushAll d.sink (d.added bytes) :=
    congrArg (fun r => r.1.sink) (feed_withSink d d.sink bytes).1
  refine ⟨?_, events⟩
  rw [view, fed, view, sink, renders.pushAll]

theorem view_replacePending (d : Decoder σ) :
    (d.view f).replacePending = d.replacePending.view f := by
  simp only [replacePending, view, withSink, renders.push]

theorem view_replaced (d : Decoder σ) :
    ({ d.view f with replacing := false } : Decoder τ).replacePending
      = (replacePending { d with replacing := false }).view f :=
  view_replacePending renders { d with replacing := false }

theorem view_finish (d : Decoder σ) :
    (d.view f).finish = (d.finish.1.view f, d.finish.2) := by
  have replaced := view_replaced renders d
  by_cases between : d.state.isAccept = true
  · have accepts : (d.view f).state.isAccept = true := between
    rw [finish, finish, if_pos accepts, if_pos between]
    rfl
  · have waits : ¬ (d.view f).state.isAccept = true := between
    rw [finish, finish, if_neg waits, if_neg between, replaced]
    rfl

theorem view_interruptPending (d : Decoder σ) :
    (d.view f).interruptPending = (d.interruptPending.1.view f, d.interruptPending.2) := by
  have replaced := view_replaced renders d
  by_cases between : d.state.isAccept = true
  · have accepts : (d.view f).state.isAccept = true := between
    rw [interruptPending, interruptPending, if_pos accepts, if_pos between]
    rfl
  · have waits : ¬ (d.view f).state.isAccept = true := between
    rw [interruptPending, interruptPending, if_neg waits, if_neg between, replaced]
    rfl

theorem view_append (d : Decoder σ) (cs : List Char) :
    (d.view f).append cs = ((d.append cs).1.view f, (d.append cs).2) := by
  rw [append, append, view_interruptPending renders]
  cases d.interruptPending with
  | mk d outcome =>
      cases outcome with
      | ok => simp only [view, withSink, renders.pushAll]
      | error e => rfl

theorem view_text (d : Decoder σ) : (d.view f).text = d.text := renders.text d.sink

theorem view_takeText (d : Decoder σ) :
    (d.view f).takeText = (d.takeText.1.view f, d.takeText.2) := by
  have emptied : d.takeText.1.view f = { d.view f with sink := Sink.empty } := by
    simp only [takeText, view, withSink, renders.empty]
  rw [emptied, takeText, takeText, view_text renders]

theorem view_replacedText (d : Decoder σ) :
    (d.view f).replacedText = (d.replacedText.1.view f, d.replacedText.2) := by
  by_cases between : d.state.isAccept = true
  · have accepts : (d.view f).state.isAccept = true := between
    rw [replacedText, replacedText, if_pos accepts, if_pos between, view_text renders]
  · have waits : ¬ (d.view f).state.isAccept = true := between
    rw [replacedText, replacedText, if_neg waits, if_neg between, view_replacePending renders,
      view_text renders]

/-- No operation but the limited feed tells the two sinks apart. -/
theorem view_perform (d : Decoder σ) {op : Op} (unlimited : op.IsUnlimited) :
    (d.view f).perform op = ((d.perform op).1.view f, (d.perform op).2) := by
  cases op with
  | byte b => rw [perform, perform, view_decodeByte renders]
  | feed bytes =>
      obtain ⟨fed, events⟩ := view_feed renders d bytes
      rw [perform, perform, fed, events]
  | feedLimited limit bytes => exact unlimited.elim
  | append cs => rw [perform, perform, view_append renders]
  | finish =>
      rw [perform, perform, view_finish renders]
      rfl
  | checkState =>
      rw [perform, perform, checkState, checkState, view_finish renders]
      rfl
  | reset => rfl
  | partialText => rw [perform, perform, view_text renders]
  | takeText => rw [perform, perform, view_takeText renders]
  | replacedText =>
      rw [perform, perform, view_replacedText renders]
      rfl
  | setStrict strict => rfl

theorem view_performAll (d : Decoder σ) {ops : List Op} (unlimited : ∀ op ∈ ops, op.IsUnlimited) :
    (d.view f).performAll ops = ((d.performAll ops).1.view f,
      (d.performAll ops).2.map fun answer => (answer.1, answer.2.1.view f, answer.2.2)) := by
  induction ops generalizing d with
  | nil => rfl
  | cons op rest ih =>
      obtain ⟨first, later⟩ := List.forall_mem_cons.mp unlimited
      rw [performAll, performAll, view_perform renders d first]
      dsimp only
      rw [ih (d.perform op).1 later]
      rfl

end Renders
end Decoder

namespace Utf16

def ofString (s : String) : Utf16 := ⟨(s.toList.flatMap encode).toArray⟩

theorem units_ofString (s : String) : (ofString s).units.toList = s.toList.flatMap encode := rfl

theorem push_ofString (s : String) (c : Char) : ofString (s.push c) = Sink.push (ofString s) c := by
  have text : (s.push c).toList = s.toList ++ [c] := String.toList_push c
  simp [ofString, Sink.push, text]

theorem text_ofString (s : String) : Sink.text (ofString s) = s := by
  have text : Sink.text (ofString s) = String.ofList (decode (s.toList.flatMap encode)) := rfl
  rw [text, decode_encode, String.ofList_toList]

theorem renders_ofString : Sink.Renders ofString where
  empty := rfl
  push := push_ofString
  text := text_ofString

end Utf16

namespace Decoder

/-- Two decoders that differ in how they hold one text. -/
structure Transcribes (d : Decoder String) (e : Decoder Utf16) : Prop where
  state : e.state = d.state
  offset : e.offset = d.offset
  strict : e.strict = d.strict
  replacing : e.replacing = d.replacing
  units : e.sink.units.toList = d.sink.toList.flatMap Utf16.encode
  text : e.text = d.text

theorem Transcribes.of_view (d : Decoder String) : Transcribes d (d.view Utf16.ofString) where
  state := rfl
  offset := rfl
  strict := rfl
  replacing := rfl
  units := Utf16.units_ofString d.sink
  text := view_text Utf16.renders_ofString d

/-- Text held as bytes and as units is the same text. Two decoders that begin with one text, in
either mode, and are asked for the same, give the same replies and write the same log; after each
operation they are in the same state at the same offset, and the units of one are those of the text
of the other, so that it renders that text. -/
theorem sinks_hold_one_text (start : String) (strict : Bool) (ops : List Op)
    (unlimited : ∀ op ∈ ops, op.IsUnlimited) :
    let bytes := ({ sink := start, strict } : Decoder String).performAll ops
    let units := ({ sink := .ofString start, strict } : Decoder Utf16).performAll ops
    Transcribes bytes.1 units.1 ∧ List.Forall₂ (fun answer answer' =>
      answer'.1 = answer.1 ∧ Transcribes answer.2.1 answer'.2.1 ∧ answer'.2.2 = answer.2.2)
      bytes.2 units.2 := by
  intro bytes units
  have same : units = _ :=
    view_performAll Utf16.renders_ofString ({ sink := start, strict } : Decoder String) unlimited
  rw [same]
  refine ⟨.of_view bytes.1, ?_⟩
  rw [List.forall₂_map_right_iff]
  exact List.forall₂_same.mpr fun answer _ => ⟨rfl, .of_view answer.2.1, rfl⟩

/-- A text is taken out inside a character of two units, the mode changes before a stray byte, and
what was pending is cut short by a character of two units. -/
theorem sinks_hold_one_text_at_drains :
    let ops : List Op := [.feed [0x61, 0xF0, 0x9F], .takeText, .feed [0x98, 0x80], .setStrict false,
      .byte 0x80, .byte 0x80, .feed [0xE2, 0x82], .append ['𝄞'], .partialText]
    let units := ({ sink := .ofString "é", strict := true } : Decoder Utf16).performAll ops
    units.2.map (·.1) = [.done, .text "éa", .done, .done,
        .event (.invalid (.invalidByte 0x80 5 0)), .event (.folded (.invalidByte 0x80 6 0)), .done,
        .done, .text "😀\ufffd\ufffd𝄞"]
      ∧ units.1.sink.units.toList = [0xD83D, 0xDE00, 0xFFFD, 0xFFFD, 0xD834, 0xDD1E] := by
  intro ops units
  obtain ⟨same, -⟩ := sinks_hold_one_text "é" true ops
    (by simp [ops, Op.IsUnlimited])
  refine ⟨by decide +kernel, ?_⟩
  rw [same.units]
  decide +kernel

end Decoder
end Gateway.Utf8
