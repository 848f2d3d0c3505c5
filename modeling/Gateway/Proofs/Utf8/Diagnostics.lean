import Gateway.Proofs.Utf8.Draining

/-!
What strict decoding reports. A failure names the first byte up to which the input begins no text,
and what was read before it stays decoded; input that begins a text and is none is reported at its
end: `strict_diagnostics_exact`.
-/
namespace Gateway.Text

/-- The place of the first byte up to which the bytes begin no text. -/
def BreaksAt (bytes : List UInt8) (k : Nat) : Prop :=
  k < bytes.length ∧ ¬ Begins (bytes.take (k + 1)) ∧ ∀ j < k, Begins (bytes.take (j + 1))

/-- The characters of the longest text that the bytes start with. -/
def LongestText (bytes : List UInt8) (cs : List Char) : Prop :=
  encode cs <+: bytes ∧ ∀ ds, encode ds <+: bytes → (encode ds).length ≤ (encode cs).length

theorem begins_nil : Begins [] := ⟨[], List.nil_prefix⟩

theorem begins_encode_append_iff (cs : List Char) (bytes : List UInt8) :
    Begins (encode cs ++ bytes) ↔ Begins bytes := by
  constructor
  · rintro ⟨ds, begins⟩
    have front : encode cs <+: encode ds ++ [] := by
      rw [List.append_nil]
      exact (List.prefix_append _ _).trans begins
    obtain ⟨es, rfl⟩ := prefix_of_encode_prefix front stuck_nil
    rw [encode_append] at begins
    exact ⟨es, (List.prefix_append_right_inj _).mp begins⟩
  · rintro ⟨es, begins⟩
    refine ⟨cs ++ es, ?_⟩
    rw [encode_append]
    exact (List.prefix_append_right_inj _).mpr begins

theorem longestText_of_stuck (cs : List Char) {rest : List UInt8} (stuck : Stuck rest) :
    LongestText (encode cs ++ rest) cs := by
  refine ⟨List.prefix_append _ _, ?_⟩
  intro ds within
  obtain ⟨more, rfl⟩ := prefix_of_encode_prefix within stuck
  rw [encode_append, List.length_append]
  exact Nat.le_add_right _ _

theorem BreaksAt.begins_before {bytes : List UInt8} {k : Nat} (h : BreaksAt bytes k) :
    Begins (bytes.take k) := by
  cases k with
  | zero => exact begins_nil
  | succ k => exact h.2.2 k (Nat.lt_succ_self k)

theorem begins_of_unbroken {bytes : List UInt8} (h : ∀ k, ¬ BreaksAt bytes k) : Begins bytes := by
  have up_to (n : Nat) : n ≤ bytes.length → Begins (bytes.take n) := by
    induction n with
    | zero => exact fun _ => begins_nil
    | succ n ih =>
        intro within
        have before := ih (Nat.le_of_succ_le within)
        refine Classical.byContradiction fun broken => h n ⟨within, broken, ?_⟩
        intro j earlier
        exact before.of_prefix (List.take_prefix_take_left earlier)
  have whole := up_to bytes.length (Nat.le_refl _)
  rwa [List.take_length] at whole

end Gateway.Text

namespace Gateway.Utf8.Decoder
open Text (Begins BreaksAt LongestText)

variable {σ : Type} [Sink σ]

theorem length_feedEvents {d d' : Decoder σ} {bytes : List UInt8}
    (fed : d.feed bytes = (d', .ok ())) : (d.feedEvents bytes).length = bytes.length := by
  induction bytes generalizing d with
  | nil => rfl
  | cons b rest ih =>
      rw [feed_cons] at fed
      rw [feedEvents_cons]
      generalize d.decodeByte b = stepped at fed ⊢
      obtain ⟨next, outcome⟩ := stepped
      cases outcome with
      | ok event => exact congrArg (· + 1) (ih fed)
      | error e => exact absurd (Prod.mk.inj fed).2 (by simp)

/-- Bytes that begin a text are taken: their whole characters are in the sink, the others in the
state. -/
theorem feed_of_begins {bytes : List UInt8} (begins : Begins bytes) :
    ∃ cs rest s, bytes = Text.encode cs ++ rest ∧ Reads rest s ∧ (new σ).feed bytes
      = ({ sink := Sink.pushAll Sink.empty cs, state := s, offset := bytes.length }, .ok ()) := by
  have reads : Reads [] State.start := .nothing 0
  have run : Fed Sink.empty 0 [] bytes ((new σ).feed bytes) := fed reads Sink.empty 0 bytes
  generalize (new σ).feed bytes = result at run ⊢
  cases run with
  | @whole cs rest s split reads =>
      refine ⟨cs, rest, s, split, reads, ?_⟩
      rw [Nat.zero_add]
  | @broken cs before rest after s b at_b split reads refused =>
      rw [List.nil_append] at split
      have refuted : ¬ Begins (rest ++ [b]) := Text.not_begins_of_refused reads.stuck refused
      have front : Text.encode cs ++ (rest ++ [b]) <+: bytes := by
        rw [at_b, split, ← List.append_assoc]
        exact ⟨after, by simp⟩
      exact absurd ((Text.begins_encode_append_iff _ _).mp (begins.of_prefix front)) refuted

/-- The byte that breaks is the first that is refused, and nothing behind it is read. -/
theorem feed_of_breaksAt {bytes : List UInt8} {k : Nat} (breaks : BreaksAt bytes k) :
    ∃ b cs rest s, bytes[k]? = some b ∧ bytes.take k = Text.encode cs ++ rest ∧ Reads rest s
      ∧ (new σ).feed (bytes.take k)
        = ({ sink := Sink.pushAll Sink.empty cs, state := s, offset := k }, .ok ())
      ∧ (new σ).feed bytes
        = ({ sink := Sink.push (Sink.pushAll Sink.empty cs) replacement, offset := k + 1,
             replacing := true }, .error (.invalidByte b k s.rowNumber))
      ∧ ((new σ).feedEvents bytes).length = k + 1 := by
  obtain ⟨cs, rest, s, split, reads, fed⟩ := feed_of_begins (σ := σ) breaks.begins_before
  obtain ⟨within, broken, -⟩ := breaks
  have length : (bytes.take k).length = k := List.length_take_of_le (Nat.le_of_lt within)
  rw [length] at fed
  have next : bytes.take (k + 1) = Text.encode cs ++ (rest ++ [bytes[k]]) := by
    rw [List.take_succ_eq_append_getElem within, split, List.append_assoc]
  have parts : bytes = bytes.take k ++ bytes[k] :: bytes.drop (k + 1) := by
    rw [← List.drop_eq_getElem_cons within, List.take_append_drop]
  have refuted : ¬ Begins (rest ++ [bytes[k]]) := by
    rw [next, Text.begins_encode_append_iff] at broken
    exact broken
  have stepped := decoded reads (Sink.pushAll (Sink.empty : σ) cs) k bytes[k]
  have run := feed_append_of_ok fed (bytes[k] :: bytes.drop (k + 1))
  have events := feedEvents_append (new σ) (bytes.take k) (bytes[k] :: bytes.drop (k + 1))
  have before : ((new σ).feedEvents (bytes.take k)).length = k := by
    rw [length_feedEvents fed, length]
  rw [← parts, feed_cons] at run
  rw [← parts, fed] at events
  dsimp only at events
  rw [feedEvents_cons] at events
  generalize decodeByte { sink := Sink.pushAll (Sink.empty : σ) cs, state := s, offset := k }
    bytes[k] = result at stepped run events
  cases stepped with
  | @emit c s' whole =>
      refine absurd ?_ refuted
      rw [whole]
      exact Text.begins_of_encodeChar List.prefix_rfl
  | needMore more => exact absurd more.begins refuted
  | refused =>
      refine ⟨bytes[k], cs, rest, s, List.getElem?_eq_getElem within, split, reads, fed, run, ?_⟩
      rw [events, List.length_append, before]
      rfl

/-- Strict decoding fails at the first byte up to which the input begins no text, if there is one:
it names that byte, its place and the row it came upon, has read up to it and no further, and holds
the longest text in front of it and a placeholder. If there is none, everything is read; the input
then is a text just when no sequence is left open, and if one is, the end of input is reported with
the number of bytes, the longest text stays in front of a placeholder and nothing is left open. -/
theorem strict_diagnostics_exact (σ : Type) [Sink σ] [Sink.Lawful σ] (bytes : List UInt8) :
    (∀ k, BreaksAt bytes k → ∃ b cs before after, bytes[k]? = some b
        ∧ LongestText (bytes.take k) cs
        ∧ (new σ).feed (bytes.take k) = (before, .ok ())
        ∧ (new σ).feed bytes = (after, .error (.invalidByte b k before.state.rowNumber))
        ∧ after.offset = k + 1 ∧ ((new σ).feedEvents bytes).length = k + 1
        ∧ after.sink = Sink.push (Sink.pushAll Sink.empty cs) replacement
        ∧ after.text = String.ofList (cs ++ [replacement]))
      ∧ ((∀ k, ¬ BreaksAt bytes k) → ∃ d cs, (new σ).feed bytes = (d, .ok ())
        ∧ d.offset = bytes.length ∧ LongestText bytes cs ∧ d.text = String.ofList cs
        ∧ (d.isSequenceComplete = true ↔ ∃ ds, bytes = Text.encode ds)
        ∧ (d.isSequenceComplete = false → ∃ after, d.finish
            = (after, .error (.incompleteSequence bytes.length d.state.rowNumber))
          ∧ after.isSequenceComplete = true
          ∧ after.sink = Sink.push (Sink.pushAll Sink.empty cs) replacement
          ∧ after.text = String.ofList (cs ++ [replacement]))) := by
  have placeholder (cs : List Char) :
      Sink.text (Sink.push (Sink.pushAll (Sink.empty : σ) cs) replacement)
        = String.ofList (cs ++ [replacement]) := by
    rw [← Sink.Lawful.text_pushAll (σ := σ) (cs ++ [replacement]), Sink.pushAll, Sink.pushAll,
      List.foldl_append]
    rfl
  refine ⟨?_, ?_⟩
  · intro k breaks
    obtain ⟨b, cs, rest, s, at_k, split, reads, fed, run, events⟩ :=
      feed_of_breaksAt (σ := σ) breaks
    have longest : LongestText (bytes.take k) cs := by
      rw [split]
      exact Text.longestText_of_stuck cs reads.stuck
    exact ⟨b, cs, _, _, at_k, longest, fed, run, rfl, events, rfl, placeholder cs⟩
  · intro unbroken
    obtain ⟨cs, rest, s, split, reads, fed⟩ :=
      feed_of_begins (σ := σ) (Text.begins_of_unbroken unbroken)
    have longest : LongestText bytes cs := by
      rw [split]
      exact Text.longestText_of_stuck cs reads.stuck
    have complete_iff : s.isAccept = true ↔ ∃ ds, bytes = Text.encode ds := by
      rw [reads.isAccept_iff]
      constructor
      · rintro rfl
        exact ⟨cs, split.trans (List.append_nil _)⟩
      · rintro ⟨ds, whole⟩
        exact ((Text.encode_eq_append_iff reads.stuck).mp (whole.symm.trans split)).2
    refine ⟨_, cs, fed, rfl, longest, Sink.Lawful.text_pushAll cs, complete_iff, ?_⟩
    intro incomplete
    have unfinished : rest ≠ [] := by
      intro closed
      exact absurd (reads.isAccept_iff.mpr closed) (ne_true_of_eq_false incomplete)
    exact ⟨_, finish_inside reads unfinished _ _, rfl, rfl, placeholder cs⟩

/-- A three-byte form of a short character breaks at its second byte; a cut one does not break. -/
theorem strict_diagnostics_exact_at_second_byte :
    BreaksAt [0x61, 0xE0, 0x80, 0x80] 2 ∧ LongestText [0x61, 0xE0] ['a']
      ∧ ((new String).feed [0x61, 0xE0, 0x80, 0x80]).2 = .error (.invalidByte 0x80 2 4)
      ∧ (∀ k, ¬ BreaksAt [0x61, 0xE2, 0x82] k)
      ∧ ((new String).feed [0x61, 0xE2, 0x82]).1.finish.2 = .error (.incompleteSequence 3 2) := by
  have failed : ((new String).feed [0x61, 0xE0, 0x80, 0x80]).2
      = .error (.invalidByte 0x80 2 4) := rfl
  have kept : ((new String).feed [0x61, 0xE0, 0x80, 0x80]).1.text
      = String.ofList ['a', replacement] := by decide +kernel
  have taken : ((new String).feed [0x61, 0xE2, 0x82]).2 = .ok () := rfl
  have cut : ((new String).feed [0x61, 0xE2, 0x82]).1.finish.2
      = .error (.incompleteSequence 3 2) := rfl
  obtain ⟨breaking, unbroken⟩ := strict_diagnostics_exact String [0x61, 0xE0, 0x80, 0x80]
  obtain ⟨breaking', -⟩ := strict_diagnostics_exact String [0x61, 0xE2, 0x82]
  have somewhere : ∃ k, BreaksAt [0x61, 0xE0, 0x80, 0x80] k := by
    refine Classical.byContradiction fun nowhere => ?_
    obtain ⟨d, cs, fed, -⟩ := unbroken fun k breaks => nowhere ⟨k, breaks⟩
    rw [fed] at failed
    exact absurd failed (by simp)
  obtain ⟨k, breaks⟩ := somewhere
  obtain ⟨b, cs, before, after, -, longest, -, fed, -, -, -, text⟩ := breaking k breaks
  rw [fed] at failed kept
  obtain ⟨-, rfl, -⟩ := Error.invalidByte.inj (Except.error.inj failed)
  have held : cs ++ [replacement] = ['a'] ++ [replacement] :=
    String.ofList_injective (text.symm.trans kept)
  obtain rfl := List.append_cancel_right held
  refine ⟨breaks, longest, congrArg Prod.snd fed |>.trans failed, ?_, cut⟩
  intro k breaks
  obtain ⟨b, cs, before, after, -, -, -, fed, -⟩ := breaking' k breaks
  rw [fed] at taken
  exact absurd taken (by simp)

end Gateway.Utf8.Decoder
