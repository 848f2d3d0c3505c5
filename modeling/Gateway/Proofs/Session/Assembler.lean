import Gateway.Proofs.Utf8.Decoding
import Gateway.Proofs.Utf8.Limited
import Gateway.Session.Assembler

/-!
Messages that come in frames. The verdict on a message is a function of its bytes; how they are
split does not matter, and no message leaves anything behind for the next one.
-/
namespace Gateway.Session.Assembler
open Utf8 (Reads Sink State)

/-- The frames of one message, given up at the first failure. The last frame ends the message. -/
def pushMessage (a : Assembler) : List (List UInt8) → Assembler × Except Error (Option String)
  | [] => (a, .ok none)
  | payload :: rest =>
    match a.onFrame payload rest.isEmpty with
    | (a, .ok none) => a.pushMessage rest
    | verdict => verdict

def pushMessages (a : Assembler) :
    List (List (List UInt8)) → Assembler × List (Except Error (Option String))
  | [] => (a, [])
  | frames :: rest =>
    let (a, verdict) := a.pushMessage frames
    let (a, verdicts) := a.pushMessages rest
    (a, verdict :: verdicts)

def run (a : Assembler) (calls : List (List UInt8 × Bool)) : Assembler :=
  calls.foldl (fun a call => (a.onFrame call.1 call.2).1) a

/-- A frame that is not the last one is as good as a part of the next frame. -/
theorem onFrame_append (a : Assembler) (payload more : List UInt8) :
    a.onFrame (payload ++ more) true =
      match a.onFrame payload false with
      | (a', .ok none) => a'.onFrame more true
      | verdict => verdict := by
  simp only [onFrame, Utf8.Decoder.feedLimited_append]
  cases a.decoder.feedLimited a.limit payload with
  | mk d outcome =>
      cases outcome with
      | error e => rfl
      | ok within =>
          cases within with
          | true => rfl
          | false => rfl

theorem onFrame_final_ne_none (a : Assembler) (payload : List UInt8) :
    (a.onFrame payload true).2 ≠ .ok none := by
  rw [onFrame]
  split
  · simp
  · simp
  · rw [if_pos rfl]
    split
    · simp
    · simp

theorem pushMessage_eq (a : Assembler) {frames : List (List UInt8)} (h : frames ≠ []) :
    a.pushMessage frames = a.onFrame frames.flatten true := by
  induction frames generalizing a with
  | nil => exact absurd rfl h
  | cons payload rest ih =>
      cases rest with
      | nil =>
          have settled := onFrame_final_ne_none a payload
          rw [pushMessage, List.flatten_singleton]
          simp only [List.isEmpty_nil]
          generalize a.onFrame payload true = verdict at settled ⊢
          obtain ⟨a', outcome⟩ := verdict
          cases outcome with
          | error e => rfl
          | ok text =>
              cases text with
              | none => exact absurd rfl settled
              | some text => rfl
      | cons second rest =>
          rw [pushMessage, List.flatten_cons, onFrame_append]
          simp only [List.isEmpty_cons]
          cases a.onFrame payload false with
          | mk a' outcome =>
              cases outcome with
              | error e => rfl
              | ok text =>
                  cases text with
                  | none => exact ih a' (List.cons_ne_nil second rest)
                  | some text => rfl

/-- The verdict on a message by its bytes: the characters they begin with, and what is behind. -/
inductive Verdict (limit : Nat) (payload : List UInt8) :
    Assembler × Except Error (Option String) → Prop
  | text {cs : List Char} : payload = Text.encode cs → Text.byteLength cs ≤ limit →
      Verdict limit payload (new limit, .ok (some (String.ofList cs)))
  | tooLarge {cs : List Char} : Text.encode cs <+: payload → limit < Text.byteLength cs →
      Verdict limit payload (new limit, .error (.messageTooLarge limit))
  | invalid {cs : List Char} {rest : List UInt8} {e : Utf8.Error} :
      payload = Text.encode cs ++ rest → Text.Stuck rest → rest ≠ [] → Text.byteLength cs ≤ limit →
      Verdict limit payload (new limit, .error (.invalidText e))

theorem size_pushAll (cs : List Char) :
    Sink.size (Sink.pushAll (Sink.empty : String) cs) = Text.byteLength cs := by
  have text := Sink.pushAll_string "" cs
  rw [String.empty_append] at text
  rw [show (Sink.empty : String) = "" from rfl, text, Sink.size_ofList]

theorem exists_of_feed {bytes : List UInt8} {d : Utf8.Decoder String}
    (h : (Utf8.Decoder.new String).feed bytes = (d, .ok ())) : ∃ cs rest s,
      bytes = Text.encode cs ++ rest ∧ Reads rest s ∧ d.size = Text.byteLength cs
        ∧ d = { sink := Sink.pushAll Sink.empty cs, state := s, offset := bytes.length } := by
  have start : Reads [] State.start := .nothing 0
  have fed : Utf8.Decoder.Fed Sink.empty 0 [] bytes ((Utf8.Decoder.new String).feed bytes) :=
    Utf8.Decoder.fed start Sink.empty 0 bytes
  rw [h] at fed
  cases fed with
  | @whole cs rest s split reads =>
      refine ⟨cs, rest, s, split, reads, size_pushAll cs, ?_⟩
      rw [Nat.zero_add]

theorem verdict (limit : Nat) (payload : List UInt8) :
    Verdict limit payload ((new limit).onFrame payload true) := by
  have stopped := Utf8.Decoder.limited (new limit).decoder (new limit).limit payload
  rw [onFrame]
  generalize (new limit).decoder.feedLimited (new limit).limit payload = result at stopped ⊢
  cases stopped with
  | whole fed small =>
      obtain ⟨cs, rest, s, split, reads, size, rfl⟩ := exists_of_feed fed
      rw [size] at small
      by_cases unfinished : rest = []
      · subst unfinished
        rw [List.append_nil] at split
        have finish := Utf8.Decoder.finish_between reads
          (Sink.pushAll (Sink.empty : String) cs) payload.length
        have text : Sink.text (Sink.pushAll (Sink.empty : String) cs) = String.ofList cs :=
          Sink.Lawful.text_pushAll cs
        have answer := Verdict.text split small
        rw [← text] at answer
        simp only [if_pos, finish]
        exact answer
      · have finish := Utf8.Decoder.finish_inside reads unfinished
          (Sink.pushAll (Sink.empty : String) cs) payload.length
        simp only [if_pos, finish]
        exact .invalid split reads.stuck unfinished small
  | @beyond before after d split fed large =>
      obtain ⟨cs, rest, s, front, reads, size, rfl⟩ := exists_of_feed fed
      rw [size] at large
      have begins : Text.encode cs <+: payload := by
        rw [split, front, List.append_assoc]
        exact List.prefix_append _ _
      exact .tooLarge begins large
  | @broken before after b d d' e split fed small failed =>
      obtain ⟨cs, rest, s, front, reads, size, rfl⟩ := exists_of_feed fed
      rw [size] at small
      have decoded := Utf8.Decoder.decoded reads (Sink.pushAll (Sink.empty : String) cs)
        before.length b
      rw [failed] at decoded
      cases decoded with
      | refused refused =>
          have behind : payload = Text.encode cs ++ (rest ++ b :: after) := by
            rw [split, front, List.append_assoc]
          exact .invalid behind (Text.stuck_of_refused reads.stuck refused) (by simp) small

theorem length_le_of_encode_prefix {cs ds : List Char} {rest : List UInt8}
    (h : Text.encode ds <+: Text.encode cs ++ rest) (hr : Text.Stuck rest) :
    Text.byteLength ds ≤ Text.byteLength cs := by
  obtain ⟨more, rfl⟩ := Text.prefix_of_encode_prefix h hr
  rw [← Text.length_encode, ← Text.length_encode, Text.encode_append, List.length_append]
  exact Nat.le_add_right _ _

/-- A message leaves an assembler as a new one is. -/
theorem Verdict.clean {limit : Nat} {payload : List UInt8}
    {result : Assembler × Except Error (Option String)} (h : Verdict limit payload result) :
    result.1 = new limit := by
  cases h with
  | text | tooLarge | invalid => rfl

theorem Verdict.text_iff {limit : Nat} {payload : List UInt8}
    {result : Assembler × Except Error (Option String)} (h : Verdict limit payload result)
    (text : String) : result.2 = .ok (some text) ↔
      ∃ cs, payload = Text.encode cs ∧ payload.length ≤ limit ∧ text = String.ofList cs := by
  cases h with
  | @text cs bytes small =>
      subst bytes
      constructor
      · intro answer
        simp only [Except.ok.injEq, Option.some.injEq] at answer
        exact ⟨cs, rfl, by rwa [Text.length_encode], answer.symm⟩
      · rintro ⟨ds, same, -, rfl⟩
        rw [Text.encode_injective same]
  | @tooLarge cs front large =>
      constructor
      · intro answer
        exact absurd answer (by simp)
      · rintro ⟨ds, rfl, small, -⟩
        have shorter := front.length_le
        rw [Text.length_encode] at shorter
        omega
  | @invalid cs rest e split stuck left small =>
      constructor
      · intro answer
        exact absurd answer (by simp)
      · rintro ⟨ds, rfl, -, -⟩
        exact absurd ((Text.encode_eq_append_iff stuck).mp split).2 left

theorem Verdict.tooLarge_iff {limit : Nat} {payload : List UInt8}
    {result : Assembler × Except Error (Option String)} (h : Verdict limit payload result) :
    result.2 = .error (.messageTooLarge limit) ↔
      ∃ cs, Text.encode cs <+: payload ∧ limit < Text.byteLength cs := by
  cases h with
  | @text cs bytes small =>
      constructor
      · intro answer
        exact absurd answer (by simp)
      · rintro ⟨ds, front, large⟩
        rw [bytes, ← List.append_nil (Text.encode cs)] at front
        have shorter := length_le_of_encode_prefix front Text.stuck_nil
        omega
  | @tooLarge cs front large =>
      constructor
      · intro _
        exact ⟨cs, front, large⟩
      · intro _
        rfl
  | @invalid cs rest e split stuck left small =>
      constructor
      · intro answer
        exact absurd answer (by simp)
      · rintro ⟨ds, front, large⟩
        rw [split] at front
        have shorter := length_le_of_encode_prefix front stuck
        omega

theorem Verdict.exhausted {limit : Nat} {payload : List UInt8}
    {result : Assembler × Except Error (Option String)} (h : Verdict limit payload result) :
    (∃ text, result.2 = .ok (some text)) ∨ result.2 = .error (.messageTooLarge limit)
      ∨ ∃ e, result.2 = .error (.invalidText e) := by
  cases h with
  | text => exact .inl ⟨_, rfl⟩
  | tooLarge => exact .inr (.inl rfl)
  | invalid => exact .inr (.inr ⟨_, rfl⟩)

/-- One call keeps the ceiling and what is held under it. -/
theorem onFrame_pending (a : Assembler) (payload : List UInt8) (final : Bool) :
    (a.onFrame payload final).1.limit = a.limit
      ∧ (a.onFrame payload final).1.pendingSize ≤ a.limit := by
  have empty : Sink.size (Sink.empty : String) ≤ a.limit := Nat.zero_le a.limit
  rw [onFrame]
  split
  · exact ⟨rfl, empty⟩
  · exact ⟨rfl, empty⟩
  · rename_i d whole
    by_cases last : final = true
    · rw [if_pos last]
      split
      · exact ⟨rfl, empty⟩
      · exact ⟨rfl, empty⟩
    · rw [if_neg last]
      exact ⟨rfl, Utf8.Decoder.size_of_feedLimited whole⟩

theorem run_pending (a : Assembler) (small : a.pendingSize ≤ a.limit)
    (calls : List (List UInt8 × Bool)) : (a.run calls).pendingSize ≤ a.limit := by
  induction calls generalizing a with
  | nil => exact small
  | cons call rest ih =>
      obtain ⟨limit, within⟩ := onFrame_pending a call.1 call.2
      have later := ih (a.onFrame call.1 call.2).1 (by rwa [limit])
      rwa [limit] at later

theorem pushMessages_new (limit : Nat) {messages : List (List (List UInt8))}
    (split : ∀ frames ∈ messages, frames ≠ []) : (new limit).pushMessages messages =
      (new limit, messages.map fun frames => ((new limit).onFrame frames.flatten true).2) := by
  induction messages with
  | nil => rfl
  | cons frames rest ih =>
      have first := pushMessage_eq (new limit) (split frames List.mem_cons_self)
      have clean := (verdict limit frames.flatten).clean
      have later := ih fun frames h => split frames (List.mem_cons_of_mem _ h)
      simp only [pushMessages, first, clean, later, List.map_cons]

/-- Messages pushed one after the other, however each is split: the verdicts are those on the whole
messages alone, each is read off the bytes, nothing is left behind, and never is more held than one
message may have. -/
theorem messages_reassembled (limit : Nat) (messages : List (List (List UInt8)))
    (split : ∀ frames ∈ messages, frames ≠ []) :
    (new limit).pushMessages messages =
        (new limit, messages.map fun frames => ((new limit).onFrame frames.flatten true).2)
      ∧ (∀ payload, let result := ((new limit).onFrame payload true).2
          (∀ text, result = .ok (some text) ↔
            ∃ cs, payload = Text.encode cs ∧ payload.length ≤ limit ∧ text = String.ofList cs)
          ∧ (result = .error (.messageTooLarge limit) ↔
            ∃ cs, Text.encode cs <+: payload ∧ limit < Text.byteLength cs)
          ∧ ((∃ text, result = .ok (some text)) ∨ result = .error (.messageTooLarge limit)
            ∨ ∃ e, result = .error (.invalidText e)))
      ∧ (∀ calls, ((new limit).run calls).pendingSize ≤ limit) ∧ (new limit).pendingSize = 0 := by
  refine ⟨pushMessages_new limit split, ?_, ?_, rfl⟩
  · intro payload
    have judged := verdict limit payload
    exact ⟨judged.text_iff, judged.tooLarge_iff, judged.exhausted⟩
  · intro calls
    exact run_pending (new limit) (Nat.zero_le limit) calls

theorem messages_reassembled_at_split_euro_sign :
    (∀ frames ∈ [[[0x61, 0xE2], [0x82, 0xAC]], [[0xE2, 0x82], []]],
        frames ≠ ([] : List (List UInt8)))
      ∧ ((new 4).pushMessages [[[0x61, 0xE2], [0x82, 0xAC]], [[0xE2, 0x82], []]]).1 = new 4
      ∧ ((new 4).onFrame [0x61, 0xE2, 0x82, 0xAC] true).2
        = .ok (some (String.ofList ['a', '€'])) := by
  have split : ∀ frames ∈ [[[0x61, 0xE2], [0x82, 0xAC]], [[0xE2, 0x82], []]],
      frames ≠ ([] : List (List UInt8)) := by decide
  have all := messages_reassembled 4 [[[0x61, 0xE2], [0x82, 0xAC]], [[0xE2, 0x82], []]] split
  refine ⟨split, congrArg Prod.fst all.1, ?_⟩
  exact ((all.2.1 [0x61, 0xE2, 0x82, 0xAC]).1 _).mpr ⟨['a', '€'], by decide, by decide, rfl⟩

end Gateway.Session.Assembler
