import Gateway.Proofs.Utf8.Lockstep

/-!
Starting afresh in the middle of a stream. After a reset, after the end of input is resolved and
after text is appended, a decoder goes on like one that has read nothing. Of what it has read only
the offset is left, and a reset drops that as well.
-/
namespace Gateway.Utf8

/-! ### Signals at a later offset -/

def Error.later (shift : Nat) : Error → Error
  | .invalidByte byte offset row => .invalidByte byte (offset + shift) row
  | .incompleteSequence offset row => .incompleteSequence (offset + shift) row
  | .interruptedSequence row => .interruptedSequence row

def DecodeEvent.later (shift : Nat) : DecodeEvent → DecodeEvent
  | .invalid e => .invalid (e.later shift)
  | .folded e => .folded (e.later shift)
  | event => event

def Reply.later (shift : Nat) : Reply → Reply
  | .failed e => .failed (e.later shift)
  | .event ev => .event (ev.later shift)
  | reply => reply

def laterSignal (shift : Nat) (signal : Except Error DecodeEvent) : Except Error DecodeEvent :=
  (signal.map (DecodeEvent.later shift)).mapError (Error.later shift)

theorem addedBy_laterSignal (shift : Nat) (signal : Except Error DecodeEvent) :
    addedBy (laterSignal shift signal) = addedBy signal := by
  cases signal with
  | error e => rfl
  | ok event =>
      cases event with
      | emit | needMore | invalid | folded => rfl

theorem Reply.ofUnit_mapError (shift : Nat) (outcome : Except Error Unit) :
    ofUnit (outcome.mapError (Error.later shift)) = (ofUnit outcome).later shift := by
  cases outcome with
  | ok | error => rfl

theorem Reply.ofEvent_laterSignal (shift : Nat) (signal : Except Error DecodeEvent) :
    ofEvent (laterSignal shift signal) = (ofEvent signal).later shift := by
  cases signal with
  | ok | error => rfl

/-! ### States that no byte tells apart -/

/-- Two states are the same, or both stand between characters. In the second case they may hold
different bits, of a character that is finished. -/
def State.Alike (s t : State) : Prop := s = t ∨ s.isAccept = true ∧ t.isAccept = true

namespace State.Alike
variable {s t : State}

theorem row (alike : s.Alike t) : s.row = t.row := by
  rcases alike with rfl | ⟨first, second⟩
  · rfl
  · simp only [isAccept, beq_iff_eq] at first second
    rw [first, second]

theorem isAccept (alike : s.Alike t) : s.isAccept = t.isAccept := by
  simp only [State.isAccept, alike.row]

theorem rowNumber (alike : s.Alike t) : s.rowNumber = t.rowNumber := by
  simp only [State.rowNumber, alike.row]

theorem step (alike : s.Alike t) (b : UInt8) : s.step b = t.step b := by
  rcases alike with rfl | ⟨first, second⟩
  · rfl
  · obtain ⟨row, bits⟩ := s
    obtain ⟨row', bits'⟩ := t
    simp only [State.isAccept, beq_iff_eq] at first second
    subst first second
    rfl

end State.Alike

/-! ### What operations read -/

namespace Decoder
variable {σ : Type} [Sink σ]

def byteEvents (d : Decoder σ) : Op → List (Except Error DecodeEvent)
  | .byte b => [(d.decodeByte b).2]
  | .feed bytes => d.feedEvents bytes
  | .feedLimited limit bytes => d.feedLimitedEvents limit bytes
  | _ => []

/-- The bytes that operations read since the last reset, or since the beginning if there was none;
`count` were read before them. -/
def consumed (d : Decoder σ) (count : Nat) : List Op → Nat
  | [] => count
  | op :: rest => (d.perform op).1.consumed
      (if op = .reset then 0 else count + (d.byteEvents op).length) rest

theorem offset_decodeByte (d : Decoder σ) (b : UInt8) :
    (d.decodeByte b).1.offset = d.offset + 1 := by
  simp only [decodeByte]
  split
  · rfl
  · split
    · rfl
    · rfl
    · rfl

theorem offset_feed (d : Decoder σ) (bytes : List UInt8) :
    (d.feed bytes).1.offset = d.offset + (d.feedEvents bytes).length := by
  induction bytes generalizing d with
  | nil => rfl
  | cons b rest ih =>
      have first := offset_decodeByte d b
      rw [feed_cons, feedEvents_cons]
      generalize d.decodeByte b = result at first ⊢
      obtain ⟨d', outcome⟩ := result
      cases outcome with
      | error e => exact first
      | ok event =>
          have later := ih d'
          simp only [List.length_cons] at first later ⊢
          omega

theorem offset_feedLimited (d : Decoder σ) (limit : Nat) (bytes : List UInt8) :
    (d.feedLimited limit bytes).1.offset
      = d.offset + (d.feedLimitedEvents limit bytes).length := by
  induction bytes generalizing d with
  | nil => rfl
  | cons b rest ih =>
      have first := offset_decodeByte d b
      simp only [feedLimited, feedLimitedEvents]
      split
      · rfl
      · generalize d.decodeByte b = result at first ⊢
        obtain ⟨d', outcome⟩ := result
        cases outcome with
        | error e => exact first
        | ok event =>
            have later := ih d'
            simp only [List.length_cons] at first later ⊢
            omega

theorem offset_finish (d : Decoder σ) : d.finish.1.offset = d.offset := by
  simp only [finish]
  split
  · rfl
  · rfl

theorem offset_interruptPending (d : Decoder σ) : d.interruptPending.1.offset = d.offset := by
  simp only [interruptPending]
  split
  · rfl
  · rfl

theorem offset_append (d : Decoder σ) (cs : List Char) : (d.append cs).1.offset = d.offset := by
  have interrupted := offset_interruptPending d
  unfold append
  generalize d.interruptPending = result at interrupted ⊢
  obtain ⟨d', outcome⟩ := result
  cases outcome with
  | ok | error => exact interrupted

theorem offset_replacedText (d : Decoder σ) : d.replacedText.1.offset = d.offset := by
  simp only [replacedText]
  split
  · rfl
  · rfl

/-- The offset counts what is read, and a reset begins the count again. -/
theorem offset_perform (d : Decoder σ) (op : Op) : (d.perform op).1.offset
    = if op = .reset then 0 else d.offset + (d.byteEvents op).length := by
  cases op with
  | byte b => exact offset_decodeByte d b
  | feed bytes => exact offset_feed d bytes
  | feedLimited limit bytes => exact offset_feedLimited d limit bytes
  | append cs => exact offset_append d cs
  | finish | checkState => exact offset_finish d
  | replacedText => exact offset_replacedText d
  | reset | partialText | takeText | setStrict => rfl

theorem offset_performAll (d : Decoder σ) (ops : List Op) :
    (d.performAll ops).1.offset = d.consumed d.offset ops := by
  induction ops generalizing d with
  | nil => rfl
  | cons op rest ih =>
      have behind := ih (d.perform op).1
      rw [offset_perform] at behind
      exact behind

theorem performAll_append (d : Decoder σ) (first second : List Op) :
    (d.performAll (first ++ second)).1 = ((d.performAll first).1.performAll second).1 := by
  induction first generalizing d with
  | nil => rfl
  | cons op rest ih => exact ih (d.perform op).1

end Decoder

/-! ### An old decoder and a new one -/

/-- The operations by which a decoder is done with what it has read. -/
def Op.IsBoundary : Op → Prop
  | .reset | .finish | .checkState | .append _ => True
  | _ => False

/-- The operations that decode: they neither look at the text nor take it out. -/
def Op.IsDecoding : Op → Prop
  | .byte _ | .feed _ | .append _ | .finish | .checkState | .setStrict _ | .reset => True
  | .feedLimited _ _ | .partialText | .takeText | .replacedText => False

namespace Decoder
variable {σ : Type} [Sink σ]

/-- An old decoder stands where a new one does, so many bytes later. Their texts may differ. -/
structure Resumed (shift : Nat) (old new : Decoder σ) : Prop where
  state : old.state.Alike new.state
  strict : old.strict = new.strict
  offset : old.offset = new.offset + shift
  replacing : old.replacing = new.replacing

/-- What an operation does on an old decoder it does on a new one, so many bytes later: the reply,
what each byte produced, and the text that is added. -/
structure Echoes (shift : Nat) (old new : Decoder σ) (op : Op) : Prop where
  reply : (old.perform op).2.1 = (new.perform op).2.1.later shift
  events : old.byteEvents op = (new.byteEvents op).map (laterSignal shift)
  text : ∃ cs, (old.perform op).1.sink = Sink.pushAll old.sink cs
    ∧ (new.perform op).1.sink = Sink.pushAll new.sink cs

theorem sink_decodeByte (d : Decoder σ) (b : UInt8) :
    (d.decodeByte b).1.sink = Sink.pushAll d.sink (addedBy (d.decodeByte b).2) :=
  congrArg (fun r => r.1.sink) (decodeByte_withSink d d.sink b)

theorem sink_feed (d : Decoder σ) (bytes : List UInt8) :
    (d.feed bytes).1.sink = Sink.pushAll d.sink (d.added bytes) :=
  congrArg (fun r => r.1.sink) (feed_withSink d d.sink bytes).1

namespace Resumed
variable {shift : Nat} {old new : Decoder σ}

theorem decodeByte (resumed : Resumed shift old new) (b : UInt8) :
    (old.decodeByte b).2 = laterSignal shift (new.decodeByte b).2
      ∧ Resumed shift (old.decodeByte b).1 (new.decodeByte b).1 := by
  obtain ⟨held, state, strict, offset, replacing⟩ := old
  obtain ⟨held', state', strict', offset', replacing'⟩ := new
  obtain ⟨alike, sameMode, sameOffset, sameRun⟩ := resumed
  simp only at alike sameMode sameOffset sameRun
  subst sameMode sameOffset sameRun
  have counted : offset' + shift + 1 = offset' + 1 + shift := Nat.add_right_comm ..
  simp only [Decoder.decodeByte, alike.step, alike.rowNumber]
  by_cases folds : (replacing && !strict && isContinuation b) = true
  · simp only [if_pos folds]
    exact ⟨rfl, alike, rfl, counted, rfl⟩
  · simp only [if_neg folds]
    generalize state'.step b = judged
    obtain ⟨next, step⟩ := judged
    have same : next.Alike next := .inl rfl
    cases step with
    | accept | pending => exact ⟨rfl, same, rfl, counted, rfl⟩
    | reject row =>
        refine ⟨?_, same, rfl, counted, rfl⟩
        cases strict with
        | true | false => rfl

theorem feed (resumed : Resumed shift old new) (bytes : List UInt8) :
    (old.feed bytes).2 = (new.feed bytes).2.mapError (Error.later shift)
      ∧ old.feedEvents bytes = (new.feedEvents bytes).map (laterSignal shift)
      ∧ Resumed shift (old.feed bytes).1 (new.feed bytes).1 := by
  induction bytes generalizing old new with
  | nil => exact ⟨rfl, rfl, resumed⟩
  | cons b rest ih =>
      obtain ⟨signal, next⟩ := resumed.decodeByte b
      simp only [feed_cons, feedEvents_cons, List.map_cons]
      generalize old.decodeByte b = result, new.decodeByte b = result' at signal next ⊢
      obtain ⟨old', outcome⟩ := result
      obtain ⟨new', outcome'⟩ := result'
      simp only at signal next
      subst signal
      cases outcome' with
      | error e => exact ⟨rfl, rfl, next⟩
      | ok event =>
          obtain ⟨outcome, events, behind⟩ := ih next
          exact ⟨outcome, congrArg (_ :: ·) events, behind⟩

theorem added (resumed : Resumed shift old new) (bytes : List UInt8) :
    old.added bytes = new.added bytes := by
  obtain ⟨-, events, -⟩ := resumed.feed bytes
  have same : (fun signal => addedBy (laterSignal shift signal)) = addedBy :=
    funext (addedBy_laterSignal shift)
  unfold Decoder.added
  simp only [events, List.flatMap_map, same]

theorem finish (resumed : Resumed shift old new) :
    old.finish.2 = new.finish.2.mapError (Error.later shift)
      ∧ Resumed shift old.finish.1 new.finish.1
      ∧ ∃ cs, old.finish.1.sink = Sink.pushAll old.sink cs
        ∧ new.finish.1.sink = Sink.pushAll new.sink cs := by
  obtain ⟨alike, strict, offset, -⟩ := resumed
  have same : State.start.Alike State.start := .inl rfl
  simp only [Decoder.finish, truncation, alike.isAccept, alike.rowNumber, offset, strict]
  by_cases between : new.state.isAccept = true
  · simp only [if_pos between]
    exact ⟨rfl, ⟨alike, rfl, rfl, rfl⟩, [], rfl, rfl⟩
  · simp only [if_neg between]
    refine ⟨?_, ⟨same, rfl, rfl, rfl⟩, [replacement], rfl, rfl⟩
    cases new.strict with
    | true | false => rfl

theorem interruptPending (resumed : Resumed shift old new) :
    old.interruptPending.2 = new.interruptPending.2.mapError (Error.later shift)
      ∧ Resumed shift old.interruptPending.1 new.interruptPending.1
      ∧ ∃ cs, old.interruptPending.1.sink = Sink.pushAll old.sink cs
        ∧ new.interruptPending.1.sink = Sink.pushAll new.sink cs := by
  obtain ⟨alike, strict, offset, -⟩ := resumed
  have same : State.start.Alike State.start := .inl rfl
  simp only [Decoder.interruptPending, alike.isAccept, alike.rowNumber, strict]
  by_cases between : new.state.isAccept = true
  · simp only [if_pos between]
    exact ⟨rfl, ⟨alike, rfl, offset, rfl⟩, [], rfl, rfl⟩
  · simp only [if_neg between]
    refine ⟨?_, ⟨same, rfl, offset, rfl⟩, [replacement], rfl, rfl⟩
    cases new.strict with
    | true | false => rfl

theorem append (resumed : Resumed shift old new) (cs : List Char) :
    (old.append cs).2 = (new.append cs).2.mapError (Error.later shift)
      ∧ Resumed shift (old.append cs).1 (new.append cs).1
      ∧ ∃ more, (old.append cs).1.sink = Sink.pushAll old.sink more
        ∧ (new.append cs).1.sink = Sink.pushAll new.sink more := by
  obtain ⟨outcome, next, more, text, text'⟩ := resumed.interruptPending
  unfold Decoder.append
  generalize old.interruptPending = result, new.interruptPending = result'
    at outcome next text text' ⊢
  obtain ⟨old', signal⟩ := result
  obtain ⟨new', signal'⟩ := result'
  simp only at outcome next text text'
  subst outcome
  cases signal' with
  | error e => exact ⟨rfl, next, more, text, text'⟩
  | ok =>
      refine ⟨rfl, ⟨next.state, next.strict, next.offset, next.replacing⟩, more ++ cs, ?_, ?_⟩
      · simp only [Sink.pushAll_append, ← text]
        rfl
      · simp only [Sink.pushAll_append, ← text']

theorem perform (resumed : Resumed shift old new) {op : Op} (decodes : op.IsDecoding) :
    Echoes shift old new op ∧ Resumed (if op = .reset then 0 else shift) (old.perform op).1
      (new.perform op).1 := by
  cases op with
  | byte b =>
      obtain ⟨signal, next⟩ := resumed.decodeByte b
      refine ⟨⟨?_, congrArg (fun s => [s]) signal, addedBy (new.decodeByte b).2, ?_, ?_⟩, next⟩
      · exact (congrArg Reply.ofEvent signal).trans (Reply.ofEvent_laterSignal ..)
      · have text := sink_decodeByte old b
        rw [signal, addedBy_laterSignal] at text
        exact text
      · exact sink_decodeByte new b
  | feed bytes =>
      obtain ⟨outcome, events, next⟩ := resumed.feed bytes
      refine ⟨⟨?_, events, new.added bytes, ?_, ?_⟩, next⟩
      · exact (congrArg Reply.ofUnit outcome).trans (Reply.ofUnit_mapError ..)
      · have text := sink_feed old bytes
        rw [resumed.added bytes] at text
        exact text
      · exact sink_feed new bytes
  | append cs =>
      obtain ⟨outcome, next, text⟩ := resumed.append cs
      exact ⟨⟨(congrArg Reply.ofUnit outcome).trans (Reply.ofUnit_mapError ..), rfl, text⟩, next⟩
  | finish | checkState =>
      obtain ⟨outcome, next, text⟩ := resumed.finish
      exact ⟨⟨(congrArg Reply.ofUnit outcome).trans (Reply.ofUnit_mapError ..), rfl, text⟩, next⟩
  | reset => exact ⟨⟨rfl, rfl, [], rfl, rfl⟩, .inl rfl, resumed.strict, rfl, rfl⟩
  | setStrict strict =>
      exact ⟨⟨rfl, rfl, [], rfl, rfl⟩, resumed.state, rfl, resumed.offset, resumed.replacing⟩
  | feedLimited | partialText | takeText | replacedText => exact decodes.elim

theorem performAll (resumed : Resumed shift old new) {ops : List Op}
    (decoding : ∀ op ∈ ops, op.IsDecoding) :
    Resumed (if .reset ∈ ops then 0 else shift) (old.performAll ops).1 (new.performAll ops).1 := by
  induction ops generalizing shift old new with
  | nil =>
      rw [if_neg List.not_mem_nil]
      exact resumed
  | cons op rest ih =>
      obtain ⟨first, later⟩ := List.forall_mem_cons.mp decoding
      have behind := ih (resumed.perform first).2 later
      by_cases resets : op = .reset
      · subst resets
        rw [if_pos rfl, ite_self] at behind
        rw [if_pos List.mem_cons_self]
        exact behind
      · have among : Op.reset ∈ op :: rest ↔ Op.reset ∈ rest := by
          simp only [List.mem_cons, Ne.symm resets, false_or]
        rw [if_neg resets] at behind
        simp only [among]
        exact behind

end Resumed

/-- Whatever a decoder has read, such an operation brings it to where a new one begins. -/
theorem resumed_of_boundary (d : Decoder σ) {op : Op} (cuts : op.IsBoundary) (fresh : σ) :
    Resumed (d.perform op).1.offset (d.perform op).1
      { sink := fresh, strict := (d.perform op).1.strict } := by
  have finished : d.finish.1.state.Alike .start ∧ d.finish.1.replacing = false := by
    simp only [finish]
    by_cases between : d.state.isAccept = true
    · simp only [if_pos between]
      exact ⟨.inr ⟨between, rfl⟩, trivial⟩
    · simp only [if_neg between]
      exact ⟨.inl rfl, rfl⟩
  have interrupted : d.interruptPending.1.state.Alike .start
      ∧ d.interruptPending.1.replacing = false := by
    simp only [interruptPending]
    by_cases between : d.state.isAccept = true
    · simp only [if_pos between]
      exact ⟨.inr ⟨between, rfl⟩, trivial⟩
    · simp only [if_neg between]
      exact ⟨.inl rfl, rfl⟩
  cases op with
  | reset => exact ⟨.inl rfl, rfl, rfl, rfl⟩
  | finish | checkState => exact ⟨finished.1, rfl, (Nat.zero_add _).symm, finished.2⟩
  | append cs =>
      have appended : (d.append cs).1.state.Alike .start ∧ (d.append cs).1.replacing = false := by
        unfold append
        generalize d.interruptPending = result at interrupted ⊢
        obtain ⟨d', outcome⟩ := result
        cases outcome with
        | ok | error => exact interrupted
      exact ⟨appended.1, rfl, (Nat.zero_add _).symm, appended.2⟩
  | byte | feed | feedLimited | partialText | takeText | replacedText | setStrict =>
      exact cuts.elim

/-- After a reset, the end of input or appended text, whatever these reported, nothing of the bytes
before has any effect. Whatever is decoded from there, each operation gives the replies, the events
and the added text that it gives on a fresh decoder in the same mode; only the offsets are later by
the bytes read before, and from the next reset on not even those. -/
theorem resumes_like_fresh (sink fresh : σ) (strict : Bool) (earlier : List Op) (boundary : Op)
    (cuts : boundary.IsBoundary) (further : List Op) (op : Op)
    (decoding : ∀ next ∈ further ++ [op], next.IsDecoding) :
    let start : Decoder σ := { sink, strict }
    let old := (start.performAll (earlier ++ [boundary])).1
    let new : Decoder σ := { sink := fresh, strict := old.strict }
    let shift := start.consumed 0 (earlier ++ [boundary])
    Echoes (if .reset ∈ further then 0 else shift) (old.performAll further).1
      (new.performAll further).1 op := by
  intro start old new shift
  have cut : old = ((start.performAll earlier).1.perform boundary).1 := performAll_append ..
  have read : old.offset = shift := offset_performAll ..
  have resumed : Resumed shift old new := by
    have boundary := resumed_of_boundary (start.performAll earlier).1 cuts fresh
    rw [← cut, read] at boundary
    exact boundary
  have between := resumed.performAll fun next among => decoding next (List.mem_append_left _ among)
  exact (between.perform (decoding op (by simp))).1

/-- Appended text ends a run inside which a stray byte would have been folded. Behind it the first
stray byte is rejected anew, at its own offset; after the next reset offsets begin again. -/
theorem resumes_like_fresh_inside_run :
    let start : Decoder String := { sink := "x" }
    let earlier : List Op := [.feed [0x61, 0xE2], .setStrict false, .feed [0xC0]]
    let old := (start.performAll (earlier ++ [.append ['b']])).1
    ((start.performAll earlier).1.perform (.byte 0x80)).2.1
        = .event (.folded (.invalidByte 0x80 3 0))
      ∧ ((old.performAll [.setStrict false]).1.perform (.byte 0x80)).2.1
        = .event (.invalid (.invalidByte 0x80 3 0))
      ∧ ((old.performAll [.byte 0x80, .reset]).1.perform (.byte 0x80)).2.1
        = .event (.invalid (.invalidByte 0x80 0 0)) := by
  intro start earlier old
  have behind := resumes_like_fresh "x" "" true earlier (.append ['b']) trivial
    [.setStrict false] (.byte 0x80) (by simp [Op.IsDecoding])
  have anew := resumes_like_fresh "x" "" true earlier (.append ['b']) trivial
    [.byte 0x80, .reset] (.byte 0x80) (by simp [Op.IsDecoding])
  refine ⟨?_, ?_, ?_⟩
  · decide +kernel
  · rw [behind.reply]
    decide +kernel
  · rw [anew.reply]
    decide +kernel

end Decoder
end Gateway.Utf8
