import Gateway.Proofs.Utf8.Automaton
import Gateway.Proofs.Utf8.Sink
import Gateway.Utf8.Decoder

/-!
Strict decoding of whole inputs. What a decoder has done is a function of the bytes: the characters
they begin with are in the sink, the bytes behind the last of them are in the state, and the first
byte that goes on with no character is the failure.
-/
namespace Gateway.Utf8.Decoder
variable {σ : Type} [Sink σ]

/-- What a strict decoder does with a byte, behind the bytes it has read of a character. -/
inductive Decoded (sink : σ) (read : List UInt8) (s : State) (offset : Nat) (b : UInt8) :
    Decoder σ × Except Error DecodeEvent → Prop
  | emit {c : Char} {s' : State} : read ++ [b] = String.utf8EncodeChar c → Reads [] s' →
      Decoded sink read s offset b
        ({ sink := Sink.push sink c, state := s', offset := offset + 1 }, .ok (.emit c))
  | needMore {s' : State} : Reads (read ++ [b]) s' →
      Decoded sink read s offset b ({ sink, state := s', offset := offset + 1 }, .ok .needMore)
  | refused : (∀ c, ¬ read ++ [b] <+: String.utf8EncodeChar c) →
      Decoded sink read s offset b
        ({ sink := Sink.push sink replacement, offset := offset + 1, replacing := true },
          .error (.invalidByte b offset s.rowNumber))

theorem decoded {read : List UInt8} {s : State} (h : Reads read s) (sink : σ) (offset : Nat)
    (b : UInt8) :
    Decoded sink read s offset b (decodeByte { sink, state := s, offset } b) := by
  have judged := h.judged b
  have folds : (false && !true && isContinuation b) = false := rfl
  rw [decodeByte, folds]
  generalize s.step b = stepped at judged ⊢
  cases judged with
  | accept row bytes => exact .emit bytes (.of_row row)
  | pending reads => exact .needMore reads
  | reject refused => exact .refused refused

/-- What a strict decoder has done with bytes, behind the bytes it had read of a character. -/
inductive Fed (sink : σ) (offset : Nat) (read bytes : List UInt8) :
    Decoder σ × Except Error Unit → Prop
  | whole {cs : List Char} {rest : List UInt8} {s : State} :
      read ++ bytes = Text.encode cs ++ rest → Reads rest s → Fed sink offset read bytes
        ({ sink := Sink.pushAll sink cs, state := s, offset := offset + bytes.length }, .ok ())
  | broken {cs : List Char} {before rest after : List UInt8} {s : State} {b : UInt8} :
      bytes = before ++ b :: after → read ++ before = Text.encode cs ++ rest → Reads rest s →
      (∀ c, ¬ rest ++ [b] <+: String.utf8EncodeChar c) → Fed sink offset read bytes
        ({ sink := Sink.push (Sink.pushAll sink cs) replacement,
           offset := offset + before.length + 1, replacing := true },
          .error (.invalidByte b (offset + before.length) s.rowNumber))

theorem Fed.of_emit {sink : σ} {offset : Nat} {read rest : List UInt8} {b : UInt8} {c : Char}
    {result : Decoder σ × Except Error Unit} (bytes : read ++ [b] = String.utf8EncodeChar c)
    (h : Fed (Sink.push sink c) (offset + 1) [] rest result) :
    Fed sink offset read (b :: rest) result := by
  have front (more : List UInt8) : read ++ b :: more = String.utf8EncodeChar c ++ more := by
    rw [← bytes, List.append_assoc, List.singleton_append]
  cases h with
  | @whole cs after s split reads =>
      have again : read ++ b :: rest = Text.encode (c :: cs) ++ after := by
        rw [front, Text.encode_cons, List.append_assoc, ← split, List.nil_append]
      have whole : Fed sink offset read (b :: rest) _ := .whole again reads
      rwa [List.length_cons, Nat.add_comm rest.length, ← Nat.add_assoc] at whole
  | @broken cs before last after s found at_found split reads refused =>
      have again : read ++ b :: before = Text.encode (c :: cs) ++ last := by
        rw [front, Text.encode_cons, List.append_assoc, ← split, List.nil_append]
      have broken : Fed sink offset read (b :: rest) _ :=
        .broken (congrArg (List.cons b) at_found) again reads refused
      rwa [List.length_cons, Nat.add_comm before.length, ← Nat.add_assoc] at broken

theorem Fed.of_needMore {sink : σ} {offset : Nat} {read rest : List UInt8} {b : UInt8}
    {result : Decoder σ × Except Error Unit} (h : Fed sink (offset + 1) (read ++ [b]) rest result) :
    Fed sink offset read (b :: rest) result := by
  have front (more : List UInt8) : read ++ b :: more = read ++ [b] ++ more := by
    rw [List.append_assoc, List.singleton_append]
  cases h with
  | @whole cs after s split reads =>
      have whole : Fed sink offset read (b :: rest) _ := .whole ((front rest).trans split) reads
      rwa [List.length_cons, Nat.add_comm rest.length, ← Nat.add_assoc] at whole
  | @broken cs before last after s found at_found split reads refused =>
      have broken : Fed sink offset read (b :: rest) _ :=
        .broken (congrArg (List.cons b) at_found) ((front before).trans split) reads refused
      rwa [List.length_cons, Nat.add_comm before.length, ← Nat.add_assoc] at broken

theorem fed {read : List UInt8} {s : State} (h : Reads read s) (sink : σ) (offset : Nat)
    (bytes : List UInt8) :
    Fed sink offset read bytes (feed { sink, state := s, offset } bytes) := by
  induction bytes generalizing sink offset read s with
  | nil =>
      have split : read ++ [] = Text.encode [] ++ read := List.append_nil read
      exact .whole split h
  | cons b rest ih =>
      have first := decoded h sink offset b
      rw [feed]
      generalize decodeByte { sink, state := s, offset } b = stepped at first ⊢
      cases first with
      | emit bytes between => exact (ih between _ _).of_emit bytes
      | needMore reads => exact (ih reads _ _).of_needMore
      | refused refused =>
          have split : read ++ [] = Text.encode [] ++ read := List.append_nil read
          exact .broken (List.nil_append (b :: rest)).symm split h refused

def eventsOf (c : Char) : List DecodeEvent := .replicate (c.utf8Size - 1) .needMore ++ [.emit c]

theorem feedEvents_char {read left : List UInt8} {s : State} {c : Char} (h : Reads read s)
    (more : left ≠ []) (bytes : read ++ left = String.utf8EncodeChar c) (sink : σ) (offset : Nat)
    (rest : List UInt8) : ∃ s', Reads [] s' ∧ feedEvents { sink, state := s, offset } (left ++ rest)
      = (List.replicate (left.length - 1) DecodeEvent.needMore ++ [DecodeEvent.emit c]).map .ok
        ++ feedEvents { sink := Sink.push sink c, state := s', offset := offset + left.length }
          rest := by
  induction left generalizing read s offset with
  | nil => exact absurd rfl more
  | cons b left ih =>
      have front : read ++ [b] ++ left = String.utf8EncodeChar c := by
        rw [List.append_assoc, List.singleton_append, bytes]
      have first := decoded h sink offset b
      rw [List.cons_append, feedEvents]
      generalize decodeByte { sink, state := s, offset } b = stepped at first ⊢
      cases first with
      | @emit d s' at_b between =>
          rw [at_b] at front
          obtain ⟨rfl, rfl⟩ := Text.encodeChar_append_inj
            (front.trans (List.append_nil (String.utf8EncodeChar c)).symm)
          exact ⟨s', between, rfl⟩
      | needMore reads =>
          cases left with
          | nil =>
              rw [List.append_nil] at front
              have whole : String.utf8EncodeChar c <+: read ++ [b] :=
                ⟨[], by rw [List.append_nil, front]⟩
              exact absurd whole (reads.stuck c)
          | cons b' left =>
              obtain ⟨s', between, events⟩ := ih reads (List.cons_ne_nil b' left) front (offset + 1)
              have later : offset + 1 + (b' :: left).length
                  = offset + (b :: b' :: left).length := by
                simp only [List.length_cons]
                omega
              rw [later] at events
              exact ⟨s', between, congrArg (List.cons (.ok .needMore)) events⟩
      | refused refused => exact absurd ⟨left, front⟩ (refused c)

theorem feedEvents_encode (cs : List Char) {s : State} (h : Reads [] s) (sink : σ) (offset : Nat) :
    feedEvents { sink, state := s, offset } (Text.encode cs) = (cs.flatMap eventsOf).map .ok := by
  induction cs generalizing s sink offset with
  | nil => rfl
  | cons c cs ih =>
      obtain ⟨s', between, events⟩ := feedEvents_char h (Text.encodeChar_ne_nil c)
        (List.nil_append _) sink offset (Text.encode cs)
      rw [Text.encode_cons, events, ih between]
      simp only [List.flatMap_cons, List.map_append, eventsOf, String.length_utf8EncodeChar]

theorem finish_between {s : State} (h : Reads [] s) (sink : σ) (offset : Nat) :
    finish { sink, state := s, offset } = ({ sink, state := s, offset }, .ok ()) :=
  if_pos (h.isAccept_iff.mpr rfl)

theorem finish_inside {rest : List UInt8} {s : State} (h : Reads rest s) (unfinished : rest ≠ [])
    (sink : σ) (offset : Nat) : finish { sink, state := s, offset } =
      ({ sink := Sink.push sink replacement, offset },
        .error (.incompleteSequence offset s.rowNumber)) :=
  if_neg (mt h.isAccept_iff.mp unfinished)

/-- Whole bytes: fed, and finished if nothing failed. -/
def decodeAll (σ : Type) [Sink σ] (bytes : List UInt8) : Decoder σ × Except Error Unit :=
  match (new σ).feed bytes with
  | (d, .ok ()) => d.finish
  | (d, .error e) => (d, .error e)

theorem decodeAll_encode (cs : List Char) : ∃ s, decodeAll σ (Text.encode cs) =
    ({ sink := Sink.pushAll Sink.empty cs, state := s, offset := (Text.encode cs).length },
      .ok ()) := by
  have reads : Reads [] State.start := .nothing 0
  have run : Fed Sink.empty 0 [] (Text.encode cs) ((new σ).feed (Text.encode cs)) :=
    fed reads Sink.empty 0 (Text.encode cs)
  rw [decodeAll]
  generalize (new σ).feed (Text.encode cs) = result at run ⊢
  cases run with
  | @whole ds rest s split reads =>
      obtain ⟨rfl, rfl⟩ := (Text.encode_eq_append_iff reads.stuck).mp split
      refine ⟨s, ?_⟩
      rw [Nat.zero_add]
      exact finish_between reads _ _
  | @broken ds before rest after s b at_b split reads refused =>
      have split : Text.encode cs = Text.encode ds ++ (rest ++ b :: after) := by
        rw [at_b, ← List.append_assoc, ← split, List.nil_append]
      have impossible := (Text.encode_eq_append_iff
        (Text.stuck_of_refused reads.stuck refused)).mp split
      exact absurd impossible.2 (by simp)

/-- What decodes without failure is the bytes of characters. -/
theorem encode_of_decodeAll {bytes : List UInt8} (ok : (decodeAll σ bytes).2 = .ok ()) :
    ∃ cs, bytes = Text.encode cs := by
  have reads : Reads [] State.start := .nothing 0
  have run : Fed Sink.empty 0 [] bytes ((new σ).feed bytes) := fed reads Sink.empty 0 bytes
  rw [decodeAll] at ok
  generalize (new σ).feed bytes = result at run ok
  cases run with
  | @whole cs rest s split reads =>
      by_cases unfinished : rest = []
      · subst unfinished
        rw [List.nil_append, List.append_nil] at split
        exact ⟨cs, split⟩
      · have failed := finish_inside reads unfinished (Sink.pushAll (Sink.empty : σ) cs)
          (0 + bytes.length)
        exact absurd ((congrArg Prod.snd failed).symm.trans ok) (by simp)
  | broken => exact absurd ok (by simp)

/-- Strict decoding succeeds on the bytes of characters and on nothing else; it gives these
characters back, and every byte is answered by a character of them or by silence. -/
theorem decodeAll_exact (σ : Type) [Sink σ] [Sink.Lawful σ] (bytes : List UInt8) :
    ((decodeAll σ bytes).2 = .ok () ↔ ∃ cs, bytes = Text.encode cs)
      ∧ ∀ cs, bytes = Text.encode cs →
        (decodeAll σ bytes).1.text = String.ofList cs
          ∧ (decodeAll σ bytes).1.sink = Sink.pushAll Sink.empty cs
          ∧ (new σ).feedEvents bytes = (cs.flatMap eventsOf).map .ok := by
  refine ⟨⟨encode_of_decodeAll, ?_⟩, ?_⟩
  · rintro ⟨cs, rfl⟩
    obtain ⟨s, decoded⟩ := @decodeAll_encode σ _ cs
    rw [decoded]
  · rintro cs rfl
    obtain ⟨s, decoded⟩ := @decodeAll_encode σ _ cs
    refine ⟨?_, ?_, feedEvents_encode cs (.nothing 0) Sink.empty 0⟩
    · rw [decoded]
      exact Sink.Lawful.text_pushAll cs
    · rw [decoded]

theorem decodeAll_exact_at_euro_sign : [0xE2, 0x82, 0xAC] = Text.encode ['€']
    ∧ (decodeAll String [0xE2, 0x82, 0xAC]).1.text = String.ofList ['€']
    ∧ (decodeAll Utf16 [0xE2, 0x82, 0xAC]).1.text = String.ofList ['€'] := by
  have bytes : [0xE2, 0x82, 0xAC] = Text.encode ['€'] := by decide
  refine ⟨bytes, ?_, ?_⟩
  · exact ((decodeAll_exact String [0xE2, 0x82, 0xAC]).2 ['€'] bytes).1
  · exact ((decodeAll_exact Utf16 [0xE2, 0x82, 0xAC]).2 ['€'] bytes).1

end Gateway.Utf8.Decoder
