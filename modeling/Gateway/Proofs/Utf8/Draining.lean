import Gateway.Proofs.Utf8.Replacing

/-!
Taking text out of a decoder while bytes still come in. A decoder's course does not depend on its
sink, and the sink only gains what the bytes produce, so neither the cuts between chunks nor the
points at which the text is taken out leave a trace: `draining_leaves_no_trace`.
-/
namespace Gateway.Utf8

def DecodeEvent.added : DecodeEvent → List Char
  | .emit c => [c]
  | .invalid _ => [replacement]
  | .needMore | .folded _ => []

/-- A failure adds a placeholder. -/
def addedBy : Except Error DecodeEvent → List Char
  | .ok event => event.added
  | .error _ => [replacement]

namespace Decoder
variable {σ τ : Type} [Sink σ] [Sink τ]

/-- The decoder with another sink, of any kind. -/
def withSink (d : Decoder σ) (sink : τ) : Decoder τ :=
  { sink, state := d.state, strict := d.strict, offset := d.offset, replacing := d.replacing }

def added (d : Decoder σ) (bytes : List UInt8) : List Char := (d.feedEvents bytes).flatMap addedBy

theorem decodeByte_withSink (d : Decoder σ) (sink : τ) (b : UInt8) :
    (d.withSink sink).decodeByte b
      = ((d.decodeByte b).1.withSink (Sink.pushAll sink (addedBy (d.decodeByte b).2)),
        (d.decodeByte b).2) := by
  obtain ⟨held, state, strict, offset, replacing⟩ := d
  rw [withSink, decodeByte, decodeByte]
  cases (replacing && !strict && isContinuation b) with
  | true => rfl
  | false =>
      rw [if_neg Bool.false_ne_true, if_neg Bool.false_ne_true]
      dsimp only
      obtain ⟨state, step⟩ := state.step b
      cases step with
      | accept c => rfl
      | pending => rfl
      | reject row =>
          cases strict with
          | true => rfl
          | false => rfl

theorem feedEvents_cons (d : Decoder σ) (b : UInt8) (rest : List UInt8) :
    d.feedEvents (b :: rest) = (d.decodeByte b).2 :: match (d.decodeByte b).2 with
      | .ok _ => (d.decodeByte b).1.feedEvents rest
      | .error _ => [] := by
  rw [feedEvents]
  generalize d.decodeByte b = result
  obtain ⟨d', outcome⟩ := result
  cases outcome with
  | ok event => rfl
  | error e => rfl

theorem feed_cons (d : Decoder σ) (b : UInt8) (rest : List UInt8) :
    d.feed (b :: rest) = match (d.decodeByte b).2 with
      | .ok _ => (d.decodeByte b).1.feed rest
      | .error e => ((d.decodeByte b).1, .error e) := by
  rw [feed]
  generalize d.decodeByte b = result
  obtain ⟨d', outcome⟩ := result
  cases outcome with
  | ok event => rfl
  | error e => rfl

theorem feedEvents_append (d : Decoder σ) (first second : List UInt8) :
    d.feedEvents (first ++ second) = d.feedEvents first ++ match (d.feed first).2 with
      | .ok () => (d.feed first).1.feedEvents second
      | .error _ => [] := by
  induction first generalizing d with
  | nil => rfl
  | cons b rest ih =>
      rw [List.cons_append, feedEvents_cons, feedEvents_cons, feed_cons]
      generalize d.decodeByte b = result
      obtain ⟨d', outcome⟩ := result
      cases outcome with
      | ok event => exact congrArg (List.cons _) (ih d')
      | error e => rfl

/-- The sink of a decoder takes what comes and decides nothing. -/
theorem feed_withSink (d : Decoder σ) (sink : τ) (bytes : List UInt8) :
    (d.withSink sink).feed bytes
        = ((d.feed bytes).1.withSink (Sink.pushAll sink (d.added bytes)), (d.feed bytes).2)
      ∧ (d.withSink sink).feedEvents bytes = d.feedEvents bytes := by
  induction bytes generalizing d sink with
  | nil => exact ⟨rfl, rfl⟩
  | cons b rest ih =>
      rw [feed_cons, feed_cons, feedEvents_cons, feedEvents_cons, added, feedEvents_cons,
        decodeByte_withSink]
      generalize d.decodeByte b = result
      obtain ⟨d', outcome⟩ := result
      cases outcome with
      | ok event =>
          obtain ⟨fed, events⟩ := ih d' (Sink.pushAll sink event.added)
          dsimp only [addedBy] at fed events ⊢
          rw [fed, events, List.flatMap_cons]
          refine ⟨?_, rfl⟩
          rw [Sink.pushAll, Sink.pushAll, ← List.foldl_append]
          rfl
      | error e => exact ⟨rfl, rfl⟩

theorem added_append {d d' : Decoder σ} {first : List UInt8} (h : d.feed first = (d', .ok ()))
    (second : List UInt8) : d.added (first ++ second) = d.added first ++ d'.added second := by
  rw [added, feedEvents_append, h, List.flatMap_append]
  rfl

theorem feed_append_of_ok {d d' : Decoder σ} {first : List UInt8} (h : d.feed first = (d', .ok ()))
    (second : List UInt8) : d.feed (first ++ second) = d'.feed second := by
  rw [feed_append, h]

/-- A decoder has decided on the bytes of whole sequences, and has nothing in its sink of the ones
that begin another. -/
def Paused (fresh : Decoder σ) (seen : List UInt8) (d : Decoder σ) : Prop :=
  ∃ whole pending decided, seen = whole ++ pending ∧ fresh.feed whole = (decided, .ok ())
    ∧ decided.isSequenceComplete = true ∧ Reads pending d.state ∧ d.sink = decided.sink
    ∧ (d.replacing = true → pending = [])

theorem Paused.of_complete {fresh d : Decoder σ} {seen : List UInt8}
    (fed : fresh.feed seen = (d, .ok ())) (row : d.state.row = acceptRow) :
    Paused fresh seen d := by
  have reads : Reads [] d.state := .of_row row
  exact ⟨seen, [], d, (List.append_nil seen).symm, fed, reads.isAccept_iff.mpr rfl, reads, rfl,
    fun _ => rfl⟩

theorem Paused.step {fresh d d' : Decoder σ} {seen : List UInt8} {b : UInt8} {event : DecodeEvent}
    (h : Paused fresh seen d) (byte : d.decodeByte b = (d', .ok event))
    (fed : fresh.feed (seen ++ [b]) = (d', .ok ())) : Paused fresh (seen ++ [b]) d' := by
  obtain ⟨whole, pending, decided, split, fed_whole, complete, reads, sink, between⟩ := h
  obtain ⟨held, state, strict, offset, replacing⟩ := d
  rw [decodeByte] at byte
  by_cases folds : (replacing && !strict && isContinuation b) = true
  · rw [if_pos folds] at byte
    have run : replacing = true := by
      cases replacing with
      | true => rfl
      | false => exact absurd folds (by simp)
    obtain rfl := between run
    obtain rfl := (Prod.mk.inj byte).1
    exact .of_complete fed (reads.row_eq_accept_iff.mpr rfl)
  · rw [if_neg folds] at byte
    have judged := reads.judged b
    dsimp only at byte judged
    generalize state.step b = stepped at judged byte
    cases judged with
    | accept row bytes =>
        obtain rfl := (Prod.mk.inj byte).1
        exact .of_complete fed row
    | pending more =>
        obtain rfl := (Prod.mk.inj byte).1
        refine ⟨whole, pending ++ [b], decided, ?_, fed_whole, complete, more, sink, ?_⟩
        · rw [split, List.append_assoc]
        · intro run
          exact absurd run Bool.false_ne_true
    | reject refused =>
        obtain rfl := (Prod.mk.inj byte).1
        exact .of_complete fed rfl

theorem Paused.feed {fresh d d' : Decoder σ} {seen bytes : List UInt8} (h : Paused fresh seen d)
    (behind : fresh.feed seen = (d, .ok ())) (fed : d.feed bytes = (d', .ok ())) :
    Paused fresh (seen ++ bytes) d' := by
  induction bytes generalizing seen d with
  | nil =>
      obtain rfl := (Prod.mk.inj fed).1
      rwa [List.append_nil]
  | cons b rest ih =>
      rw [feed_cons] at fed
      cases byte : d.decodeByte b with
      | mk next outcome =>
          cases outcome with
          | error e =>
              rw [byte] at fed
              exact absurd (Prod.mk.inj fed).2 (by simp)
          | ok event =>
              rw [byte] at fed
              have reached : fresh.feed (seen ++ [b]) = (next, .ok ()) := by
                rw [feed_append_of_ok behind, feed_cons, byte]
                rfl
              have rest_fed := ih (h.step byte reached) reached fed
              rwa [List.append_assoc] at rest_fed

end Decoder

/-- What is asked of a decoder while bytes come in. -/
inductive Handling where
  | feed (bytes : List UInt8)
  | byte (b : UInt8)
  | drain
  deriving DecidableEq, Repr

def Handling.bytes : Handling → List UInt8
  | .feed bytes => bytes
  | .byte b => [b]
  | .drain => []

/-- What came of it: the pieces of text taken out, what each byte did, and the first failure. -/
structure Handled (σ : Type) where
  decoder : Decoder σ
  pieces : List String := []
  events : List (Except Error DecodeEvent) := []
  outcome : Except Error Unit := .ok ()

namespace Decoder
variable {σ : Type} [Sink σ]

def handle (d : Decoder σ) : Handling → Handled σ
  | .feed bytes =>
    { decoder := (d.feed bytes).1, events := d.feedEvents bytes, outcome := (d.feed bytes).2 }
  | .byte b =>
    { decoder := (d.decodeByte b).1, events := [(d.decodeByte b).2],
      outcome := (d.decodeByte b).2.map fun _ => () }
  | .drain => { decoder := d.takeText.1, pieces := [d.takeText.2] }

def handleAll (d : Decoder σ) : List Handling → Handled σ
  | [] => { decoder := d }
  | handling :: rest =>
    let first := d.handle handling
    match first.outcome with
    | .error _ => first
    | .ok () =>
      let behind := first.decoder.handleAll rest
      { behind with
        pieces := first.pieces ++ behind.pieces, events := first.events ++ behind.events }

/-- Fed one by one or all at once, bytes do the same. -/
theorem handle_byte (d : Decoder σ) (b : UInt8) : d.handle (.byte b) = d.handle (.feed [b]) := by
  rw [handle, handle, feed_cons, feedEvents_cons]
  generalize d.decodeByte b = result
  obtain ⟨d', outcome⟩ := result
  cases outcome with
  | ok event => rfl
  | error e => rfl

/-- What came of the handlings, against one feed of their bytes to a decoder that has `cs`. -/
structure Traceless (d : Decoder σ) (cs : List Char) (bytes : List UInt8) (r : Handled σ) :
    Prop where
  events : r.events = d.feedEvents bytes
  outcome : r.outcome = (d.feed bytes).2
  text : ∃ left, r.decoder = (d.feed bytes).1.withSink (Sink.pushAll (Sink.empty : σ) left)
    ∧ String.join r.pieces ++ String.ofList left = String.ofList (cs ++ d.added bytes)

theorem handle_feed (d : Decoder σ) (cs : List Char) (bytes : List UInt8) :
    (d.withSink (Sink.pushAll (Sink.empty : σ) cs)).handle (.feed bytes)
      = { decoder := (d.feed bytes).1.withSink
            (Sink.pushAll (Sink.empty : σ) (cs ++ d.added bytes)),
          events := d.feedEvents bytes, outcome := (d.feed bytes).2 } := by
  obtain ⟨fed, events⟩ := feed_withSink d (Sink.pushAll (Sink.empty : σ) cs) bytes
  rw [handle, fed, events, Sink.pushAll, Sink.pushAll, Sink.pushAll, ← List.foldl_append]

theorem Traceless.of_feed {d : Decoder σ} {cs : List Char} (bytes : List UInt8) {more : List UInt8}
    {rest : List Handling}
    (behind : ∀ d' : Decoder σ, Traceless d' (cs ++ d.added bytes) more
      ((d'.withSink (Sink.pushAll (Sink.empty : σ) (cs ++ d.added bytes))).handleAll rest)) :
    Traceless d cs (bytes ++ more)
      ((d.withSink (Sink.pushAll (Sink.empty : σ) cs)).handleAll (.feed bytes :: rest)) := by
  rw [handleAll, handle_feed]
  cases fed : d.feed bytes with
  | mk d' outcome =>
      cases outcome with
      | ok =>
          obtain ⟨events, outcome, left, decoder, text⟩ := behind d'
          have whole : d.feed (bytes ++ more) = d'.feed more := feed_append_of_ok fed more
          have all_events : d.feedEvents (bytes ++ more)
              = d.feedEvents bytes ++ d'.feedEvents more := by
            rw [feedEvents_append, fed]
          refine ⟨?_, ?_, left, ?_, ?_⟩
          · rw [all_events, ← events]
          · rw [whole, ← outcome]
          · rw [whole, ← decoder]
          · rw [added_append fed, ← List.append_assoc, ← text]
            rfl
      | error e =>
          have whole : d.feed (bytes ++ more) = (d', .error e) := by
            rw [feed_append, fed]
          have all_events : d.feedEvents (bytes ++ more) = d.feedEvents bytes := by
            rw [feedEvents_append, fed, List.append_nil]
          refine ⟨?_, ?_, cs ++ d.added bytes, ?_, ?_⟩
          · rw [all_events]
          · rw [whole]
          · rw [whole]
          · have all_added : d.added (bytes ++ more) = d.added bytes := by
              rw [added, all_events, added]
            rw [all_added]
            exact String.empty_append

variable [Sink.Lawful σ]

theorem text_withSink (d : Decoder σ) (cs : List Char) :
    (d.withSink (Sink.pushAll (Sink.empty : σ) cs)).text = String.ofList cs :=
  Sink.Lawful.text_pushAll cs

theorem traceless (d : Decoder σ) (cs : List Char) (handlings : List Handling) :
    Traceless d cs (handlings.flatMap Handling.bytes)
      ((d.withSink (Sink.pushAll (Sink.empty : σ) cs)).handleAll handlings) := by
  induction handlings generalizing d cs with
  | nil =>
      refine ⟨rfl, rfl, cs, rfl, ?_⟩
      exact String.empty_append.trans (congrArg String.ofList (List.append_nil cs).symm)
  | cons handling rest ih =>
      cases handling with
      | feed bytes => exact .of_feed bytes fun d' => ih d' _
      | byte b =>
          rw [handleAll, handle_byte]
          exact .of_feed [b] fun d' => ih d' _
      | drain =>
          obtain ⟨events, outcome, left, decoder, text⟩ := ih d []
          refine ⟨events, outcome, left, decoder, ?_⟩
          have first : ((d.withSink (Sink.pushAll (Sink.empty : σ) cs)).handleAll
              (.drain :: rest)).pieces = String.ofList cs
                :: ((d.withSink (Sink.pushAll (Sink.empty : σ) [])).handleAll rest).pieces :=
            congrArg (· :: _) (text_withSink d cs)
          rw [first, String.join_cons, String.append_assoc, text, ← String.ofList_append]
          rfl

/-- However bytes are cut into feeds and single bytes, and wherever the text is taken out between
them, the pieces and the text that is left are the text of one feed, and the events, the failure
and the decoder are the same. At each such point the text is that of whole sequences: the bytes
behind them are in the state, as the beginning of one more, and in no piece. -/
theorem draining_leaves_no_trace (σ : Type) [Sink σ] [Sink.Lawful σ] (strict : Bool)
    (handlings : List Handling) :
    let fresh := (new σ).setStrict strict
    let bytes := handlings.flatMap Handling.bytes
    let once := (fresh.feed bytes).1
    let r := fresh.handleAll handlings
    String.join r.pieces ++ r.decoder.text = once.text ∧ r.events = fresh.feedEvents bytes
      ∧ r.outcome = (fresh.feed bytes).2 ∧ { r.decoder with sink := once.sink } = once
      ∧ (r.outcome = .ok () → ∃ whole pending decided, bytes = whole ++ pending
        ∧ fresh.feed whole = (decided, .ok ()) ∧ decided.isSequenceComplete = true
        ∧ Reads pending r.decoder.state
        ∧ String.join r.pieces ++ r.decoder.text = decided.text) := by
  intro fresh bytes once r
  have start : fresh.withSink (Sink.pushAll (Sink.empty : σ) []) = fresh := rfl
  have gained := (feed_withSink fresh (Sink.pushAll (Sink.empty : σ) []) bytes).1
  obtain ⟨events, outcome, left, decoder, text⟩ := traceless fresh [] handlings
  rw [start] at gained events outcome decoder text
  have once_text : once.text = String.ofList (fresh.added bytes) :=
    (congrArg Decoder.text (Prod.mk.inj gained).1).trans (text_withSink once (fresh.added bytes))
  have same : String.join r.pieces ++ r.decoder.text = once.text := by
    rw [decoder, text_withSink, text, once_text, List.nil_append]
  refine ⟨same, events, outcome, congrArg (fun d => { d with sink := once.sink }) decoder, ?_⟩
  intro succeeded
  have fed : fresh.feed bytes = (once, .ok ()) := Prod.ext rfl (outcome.symm.trans succeeded)
  have paused : Paused fresh [] fresh := .of_complete rfl rfl
  obtain ⟨whole, pending, decided, split, fed_whole, complete, reads, sink, -⟩ :=
    paused.feed rfl fed
  refine ⟨whole, pending, decided, split, fed_whole, complete, ?_, ?_⟩
  · rw [decoder]
    exact reads
  · rw [same]
    exact congrArg Sink.text sink

/-- The text is taken out inside a character of two units, twice, and inside a run whose placeholder
is out with it. -/
theorem draining_leaves_no_trace_inside :
    let handlings : List Handling :=
      [.feed [0x61, 0xF0, 0x9F], .drain, .byte 0x98, .drain, .feed [0x80, 0xC0, 0x80], .drain,
        .feed [0x80, 0xE2]]
    let fresh := (new Utf16).setStrict false
    let r := fresh.handleAll handlings
    r.pieces = ["a", "", "😀\ufffd"] ∧ r.decoder.text = ""
      ∧ (fresh.feed (handlings.flatMap Handling.bytes)).1.text = "a😀\ufffd" := by
  intro handlings fresh r
  obtain ⟨text, -⟩ := draining_leaves_no_trace Utf16 false handlings
  have pieces : r.pieces = ["a", "", "😀\ufffd"] := by decide +kernel
  have left : r.decoder.text = "" := by decide +kernel
  have joined : String.join ["a", "", "😀\ufffd"] ++ "" = "a😀\ufffd" := by decide +kernel
  refine ⟨pieces, left, text.symm.trans ?_⟩
  rw [pieces, left, joined]

end Decoder
end Gateway.Utf8
