import Gateway.Proofs.Utf8.Draining
import Gateway.Utf8.Script

/-!
A strict and a lenient decoder, byte by byte. The strict one is asked for the next byte whatever
became of the last. Then the two go side by side: where the lenient one folds a byte without asking
the automaton, the automaton of the strict one stands between characters and refuses that byte
again. Only the signals and the placeholders of folded bytes differ.
-/
namespace Gateway.Utf8

/-- How strict mode signals what lenient mode reports as this event. -/
def DecodeEvent.signal : DecodeEvent → Except Error DecodeEvent
  | .invalid e | .folded e => .error e
  | event => .ok event

/-- What the byte of a lenient event adds to the text of strict mode: a folded one has a placeholder
of its own. -/
def DecodeEvent.addedUnfolded : DecodeEvent → List Char
  | .folded _ => [replacement]
  | event => event.added

theorem Sink.pushAll_append {σ : Type} [Sink σ] (sink : σ) (first second : List Char) :
    pushAll sink (first ++ second) = pushAll (pushAll sink first) second :=
  List.foldl_append

theorem step_start_of_isContinuation (b : UInt8) :
    isContinuation b = true → State.start.step b = (.start, .reject State.start.rowNumber) := by
  revert b
  apply forall_byte
  decide +kernel

theorem eq_start_of_reject {state next : State} {b row : UInt8}
    (refused : state.step b = (next, .reject row)) : next = .start := by
  rw [State.step] at refused
  split at refused
  · simp at refused
  · dsimp only at refused
    split at refused
    · split at refused
      · simp at refused
      · exact (Prod.mk.inj refused).1.symm
    · split at refused
      · exact (Prod.mk.inj refused).1.symm
      · simp at refused

namespace Decoder
variable {σ : Type} [Sink σ]

/-- A strict and a lenient decoder at the same place. Inside a replaced run they stand between
characters. -/
structure Abreast (s l : Decoder σ) : Prop where
  strict : s.strict = true
  lenient : l.strict = false
  state : s.state = l.state
  offset : s.offset = l.offset
  run : l.replacing = true → l.state = .start

theorem Abreast.fresh : Abreast (new σ) (Decoder.lenient σ) where
  strict := rfl
  lenient := rfl
  state := rfl
  offset := rfl
  run inside := absurd inside Bool.false_ne_true

/-- A byte brings both to one place again. The event of the lenient decoder tells what the strict
one signals, and what each of them adds. -/
theorem Abreast.decodeByte {s l : Decoder σ} (h : Abreast s l) (b : UInt8) :
    ∃ event, (l.decodeByte b).2 = .ok event ∧ (s.decodeByte b).2 = event.signal
      ∧ Abreast (s.decodeByte b).1 (l.decodeByte b).1
      ∧ (l.decodeByte b).1.sink = Sink.pushAll l.sink event.added
      ∧ (s.decodeByte b).1.sink = Sink.pushAll s.sink event.addedUnfolded := by
  obtain ⟨held, state, strict, offset, replaced⟩ := s
  obtain ⟨held', state', strict', offset', run⟩ := l
  obtain ⟨rfl, rfl, same, place, between⟩ := h
  dsimp only at same place between
  subst same place
  have unfolded (tail : Bool) : (replaced && !true && tail) = false := by simp
  by_cases folds : (run && isContinuation b) = true
  · -- The strict automaton stands where the run began, and refuses the byte that is folded.
    obtain ⟨inside, tail⟩ := Bool.and_eq_true_iff.mp folds
    obtain rfl := between inside
    refine ⟨.folded (.invalidByte b offset State.start.rowNumber), ?_⟩
    simp only [Decoder.decodeByte, unfolded, inside, tail, step_start_of_isContinuation b tail]
    exact ⟨rfl, rfl, ⟨rfl, rfl, rfl, rfl, fun _ => rfl⟩, rfl, rfl⟩
  · have asks : (run && !false && isContinuation b) = false := by simpa using folds
    cases judged : state.step b with
    | mk next outcome =>
        cases outcome with
        | accept c =>
            refine ⟨.emit c, ?_⟩
            simp only [Decoder.decodeByte, unfolded, asks, judged]
            exact ⟨rfl, rfl, ⟨rfl, rfl, rfl, rfl, fun inside => absurd inside (by simp)⟩, rfl, rfl⟩
        | pending =>
            refine ⟨.needMore, ?_⟩
            simp only [Decoder.decodeByte, unfolded, asks, judged]
            exact ⟨rfl, rfl, ⟨rfl, rfl, rfl, rfl, fun inside => absurd inside (by simp)⟩, rfl, rfl⟩
        | reject row =>
            refine ⟨.invalid (.invalidByte b offset row), ?_⟩
            simp only [Decoder.decodeByte, unfolded, asks, judged]
            exact ⟨rfl, rfl, ⟨rfl, rfl, rfl, rfl, fun _ => eq_start_of_reject judged⟩, rfl, rfl⟩

/-- Bytes fed one by one to a strict and to a lenient decoder, and the events of the lenient one.
The strict one signals each of them; after each byte both are at one place. Each event adds the same
to both texts, but for a folded byte: this one adds a placeholder to the strict text only. -/
structure SideBySide (s l : Decoder σ) (bytes : List UInt8) (events : List DecodeEvent) :
    Prop where
  reported : (l.performAll (bytes.map .byte)).2.map (·.1) = events.map .event
  signalled : (s.performAll (bytes.map .byte)).2.map (·.1)
    = events.map fun event => .ofEvent event.signal
  offsets : (s.performAll (bytes.map .byte)).2.map (·.2.1.offset)
    = (l.performAll (bytes.map .byte)).2.map (·.2.1.offset)
  states : (s.performAll (bytes.map .byte)).2.map (·.2.1.state)
    = (l.performAll (bytes.map .byte)).2.map (·.2.1.state)
  lenientSink : (l.performAll (bytes.map .byte)).1.sink
    = Sink.pushAll l.sink (events.flatMap DecodeEvent.added)
  strictSink : (s.performAll (bytes.map .byte)).1.sink
    = Sink.pushAll s.sink (events.flatMap DecodeEvent.addedUnfolded)

theorem performAll_byte (d : Decoder σ) (b : UInt8) (rest : List UInt8) :
    d.performAll ((b :: rest).map .byte)
      = (((d.decodeByte b).1.performAll (rest.map .byte)).1,
        (.ofEvent (d.decodeByte b).2, (d.decodeByte b).1, logLines [(d.decodeByte b).2])
          :: ((d.decodeByte b).1.performAll (rest.map .byte)).2) := rfl

theorem Abreast.sideBySide {s l : Decoder σ} (h : Abreast s l) (bytes : List UInt8) :
    ∃ events, SideBySide s l bytes events := by
  induction bytes generalizing s l with
  | nil => exact ⟨[], rfl, rfl, rfl, rfl, rfl, rfl⟩
  | cons b rest ih =>
      obtain ⟨event, reported, signalled, abreast, lenient_sink, strict_sink⟩ := h.decodeByte b
      obtain ⟨events, behind⟩ := ih abreast
      refine ⟨event :: events, ?_⟩
      constructor
      · rw [performAll_byte, List.map_cons, List.map_cons, behind.reported, reported]
        rfl
      · rw [performAll_byte, List.map_cons, List.map_cons, behind.signalled, signalled]
      · rw [performAll_byte, performAll_byte, List.map_cons, List.map_cons, behind.offsets,
          abreast.offset]
      · rw [performAll_byte, performAll_byte, List.map_cons, List.map_cons, behind.states,
          abreast.state]
      · rw [performAll_byte, behind.lenientSink, lenient_sink, List.flatMap_cons,
          Sink.pushAll_append]
      · rw [performAll_byte, behind.strictSink, strict_sink, List.flatMap_cons,
          Sink.pushAll_append]

/-- Strict and lenient mode differ in signals and in the placeholders of folded bytes, and in
nothing else: fresh decoders of either mode go side by side over all bytes. -/
theorem modes_go_side_by_side (σ : Type) [Sink σ] (bytes : List UInt8) :
    ∃ events, SideBySide (new σ) (Decoder.lenient σ) bytes events :=
  Abreast.fresh.sideBySide bytes

/-- Two stray bytes behind a rejected one share its placeholder in lenient mode only. -/
example : let ops : List Op := [0x61, 0xC0, 0x80, 0xBF, 0x62].map .byte
    ((new String).performAll ops).1.text = "a\ufffd\ufffd\ufffdb"
      ∧ ((Decoder.lenient String).performAll ops).1.text = "a\ufffdb" := by decide +kernel

end Decoder
end Gateway.Utf8
