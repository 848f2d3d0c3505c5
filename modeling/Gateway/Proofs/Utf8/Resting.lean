import Gateway.Proofs.Utf8.Bounded

/-!
Where the automaton can rest. Whatever bytes and resets a state has been through, its row is one of
eight, and its accumulator is bounded row by row. So no index leaves the table, no shift loses a
bit, and an entry that accepts is met with the number of a character only:
`reachable_states_sound`.
-/
namespace Gateway.Utf8

theorem size_transitions : transitions.size = 108 := rfl

/-- What a state is given: bytes to read, or the order to drop what is pending. -/
inductive Input where
  | bytes (bytes : List UInt8)
  | reset
  deriving DecidableEq, Repr

def State.take (s : State) : Input → State
  | .bytes bytes => s.run bytes
  | .reset => .start

def State.replay (s : State) (inputs : List Input) : State := inputs.foldl take s

/-! ### What the accumulator holds -/

/-- The rows that a state can rest in: the one between characters and seven inside. -/
def restingRows : List UInt8 := [0, 24, 36, 48, 60, 72, 84, 96]

/-- The rows in which a state can rest, and the numbers that its accumulator holds there. Between
characters this is the number of the last one, or nothing. Inside a character it is what the bytes
so far contribute, and however they are gone on with, they come to no surrogate and to nothing
beyond the last character. -/
inductive Held : UInt8 → Nat → Prop
  | between {n : Nat} : n.isValidChar → Held acceptRow n
  | oneMissing {n : Nat} : 0x2 ≤ n → n < 0x4400 → n / 0x20 ≠ 0x1B → Held 24 n
  | twoMissing {n : Nat} : 0x1 ≤ n → n < 0x110 → n ≠ 0xD → Held 36 n
  | afterE0 : Held 48 0
  | afterED : Held 60 0xD
  | afterF0 : Held 72 0
  | threeMissing {n : Nat} : 0x1 ≤ n → n < 0x4 → Held 84 n
  | afterF4 : Held 96 4

namespace Held
variable {row : UInt8} {n : Nat}

theorem row_mem (held : Held row n) : row ∈ restingRows := by
  cases held <;> decide

theorem toNat_row_le (held : Held row n) : row.toNat ≤ 96 := by
  cases held <;> decide

theorem lt_of_inside (held : Held row n) (inside : row ≠ acceptRow) : n < 0x4400 := by
  cases held with
  | between => exact absurd rfl inside
  | oneMissing | twoMissing | afterE0 | afterED | afterF0 | threeMissing | afterF4 => omega

theorem toNat_ofNat (held : Held row n) (inside : row ≠ acceptRow) :
    Held row (UInt32.ofNat n).toNat := by
  have small := held.lt_of_inside inside
  rwa [UInt32.toNat_ofNat', Nat.mod_eq_of_lt (by omega)]

theorem isValidChar_of_last (held : Held 24 n) {tail : Nat} (short : tail < 64) :
    (n * 64 + tail).isValidChar := by
  cases held with
  | oneMissing low high surrogates =>
      unfold Nat.isValidChar
      omega

end Held

theorem Reads.held {read : List UInt8} {s : State} (reads : Reads read s)
    (inside : s.row ≠ acceptRow) : Held s.row s.codepoint.toNat := by
  cases reads with
  | nothing => exact absurd rfl inside
  | two low high => exact (Held.oneMissing low (by omega) (by omega)).toNat_ofNat inside
  | three low high surrogates =>
      exact (Held.twoMissing low (by omega) surrogates).toNat_ofNat inside
  | afterE0 => exact .afterE0
  | afterED => exact .afterED
  | threeTwo low high surrogates =>
      exact (Held.oneMissing (by omega) (by omega) surrogates).toNat_ofNat inside
  | four low high => exact (Held.threeMissing low high).toNat_ofNat inside
  | afterF0 => exact .afterF0
  | afterF4 => exact .afterF4
  | fourTwo low high => exact (Held.twoMissing (by omega) high (by omega)).toNat_ofNat inside
  | fourThree low high => exact (Held.oneMissing (by omega) high (by omega)).toNat_ofNat inside

theorem isValidChar_zero : (0 : UInt32).toNat.isValidChar := .inl (by decide)

theorem isValidChar_of_scalar {n : UInt32} {c : Char} (scalar : scalar? n = some c) :
    n.toNat.isValidChar := by
  unfold scalar? at scalar
  split at scalar
  · assumption
  · exact absurd scalar (by simp)

theorem exists_scalar {n : UInt32} (valid : n.toNat.isValidChar) : ∃ c, scalar? n = some c :=
  ⟨⟨n, valid⟩, dif_pos valid⟩

/-- What stays in the accumulator behind a character is its number, or nothing. -/
theorem isValidChar_of_accept {s next : State} {b : UInt8} {c : Char}
    (accepted : s.step b = (next, .accept c)) : next.codepoint.toNat.isValidChar := by
  rw [State.step] at accepted
  split at accepted
  · obtain ⟨rfl, -⟩ := Prod.mk.inj accepted
    exact isValidChar_zero
  · dsimp only at accepted
    split at accepted
    · split at accepted
      case h_1 scalar =>
        obtain ⟨rfl, -⟩ := Prod.mk.inj accepted
        exact isValidChar_of_scalar scalar
      case h_2 => exact absurd accepted (by simp)
    · split at accepted
      · exact absurd accepted (by simp)
      · exact absurd accepted (by simp)

/-! ### Every run -/

/-- A state has read the beginning of a character; if it has read nothing of one, it holds the
number of the last, or nothing. -/
structure State.Rests (s : State) : Prop where
  reads : ∃ read, Reads read s
  between : s.row = acceptRow → s.codepoint.toNat.isValidChar

namespace State.Rests
variable {s : State}

theorem start : State.start.Rests := ⟨⟨[], .nothing 0⟩, fun _ => isValidChar_zero⟩

theorem held (rests : s.Rests) : Held s.row s.codepoint.toNat := by
  by_cases between : s.row = acceptRow
  · rw [between]
    exact .between (rests.between between)
  · obtain ⟨read, reads⟩ := rests.reads
    exact reads.held between

theorem step (rests : s.Rests) (b : UInt8) : (s.step b).1.Rests := by
  obtain ⟨read, reads⟩ := rests.reads
  have judged := reads.judged b
  generalize stepped : s.step b = result at judged ⊢
  cases judged with
  | accept row bytes => exact ⟨⟨[], .of_row row⟩, fun _ => isValidChar_of_accept stepped⟩
  | pending more =>
      -- What has been read is not empty, so the row is one inside a character.
      exact ⟨⟨_, more⟩, fun row => absurd (more.row_eq_accept_iff.mp row) (by simp)⟩
  | reject refused => exact start

theorem run (rests : s.Rests) (bytes : List UInt8) : (s.run bytes).Rests := by
  induction bytes generalizing s with
  | nil => exact rests
  | cons b rest ih => exact ih (rests.step b)

theorem take (rests : s.Rests) (input : Input) : (s.take input).Rests := by
  cases input with
  | bytes bytes => exact rests.run bytes
  | reset => exact start

theorem replay (rests : s.Rests) (inputs : List Input) : (s.replay inputs).Rests := by
  induction inputs generalizing s with
  | nil => exact rests
  | cons input rest ih => exact ih (rests.take input)

end State.Rests

/-! ### What a resting state is safe from -/

/-- A state is safe, whichever byte is next. -/
structure State.Sound (s : State) : Prop where
  row : s.row ∈ restingRows
  /-- The index is inside the table, so that the sum of row and class does not wrap around. -/
  index (b : UInt8) : s.row.toNat + (byteClass b).toNat < transitions.size
  /-- No shift loses a bit: the accumulator holds what it would if its numbers were unbounded. A
  first byte contributes the low bits that its class leaves, any other one its low six. -/
  bits (b : UInt8) : (s.accumulate b).toNat
    = if s.isAccept then b.toNat % 2 ^ (8 - (byteClass b).toNat)
      else s.codepoint.toNat * 64 + b.toNat % 64
  /-- Where the table accepts, the accumulator holds the number of a character and the byte is
  accepted: the case in which there is no such character never arises. -/
  scalar (b : UInt8) : transition (s.row + byteClass b) = acceptRow →
    ∃ c, scalar? (s.accumulate b) = some c ∧ (s.step b).2 = .accept c

theorem toNat_leadBits (b : UInt8) :
    (leadBits b).toNat = b.toNat % 2 ^ (8 - (byteClass b).toNat) := by
  revert b
  apply forall_byte
  decide +kernel

theorem ascii_of_lead_accept (b : UInt8) : transition (byteClass b) = acceptRow →
    b < 0x80 ∧ scalar? (leadBits b) = some (Char.ofUInt8 b) := by
  revert b
  apply forall_byte
  decide +kernel

/-- Inside a character the table accepts in the row in which one byte is missing. -/
theorem row_eq_of_accept {row : UInt8} (resting : row ∈ restingRows) (inside : row ≠ acceptRow)
    {b : UInt8} (accepts : transition (row + byteClass b) = acceptRow) : row = 24 := by
  have entries : ∀ row ∈ restingRows, row ≠ acceptRow → row ∈ insideRows.map (·.1) := by
    decide +kernel
  have last : ∀ r ∈ insideRows, r.2.2 = acceptRow → r.1 = 24 := by decide
  obtain ⟨⟨row, classes, next⟩, entry, rfl⟩ := List.mem_map.mp (entries row resting inside)
  rw [transition_inside entry] at accepts
  split at accepts
  · exact last _ entry accepts
  · exact absurd accepts (by decide)

namespace State.Rests
variable {s : State}

theorem toNat_accumulate (rests : s.Rests) (inside : s.row ≠ acceptRow) (b : UInt8) :
    (s.accumulate b).toNat = s.codepoint.toNat * 64 + b.toNat % 64 := by
  have small := rests.held.lt_of_inside inside
  have whole := accumulate_inside inside small b
  rw [UInt32.ofNat_toNat] at whole
  rw [whole, UInt32.toNat_ofNat', Nat.mod_eq_of_lt (by omega)]

theorem scalar (rests : s.Rests) {b : UInt8}
    (accepts : transition (s.row + byteClass b) = acceptRow) :
    ∃ c, scalar? (s.accumulate b) = some c ∧ (s.step b).2 = .accept c := by
  by_cases between : s.row = acceptRow
  · -- The shortcut for ASCII answers as the table would.
    have lead : transition (byteClass b) = acceptRow := by
      rwa [between, acceptRow, UInt8.zero_add] at accepts
    obtain ⟨ascii, scalar⟩ := ascii_of_lead_accept b lead
    have at_start : s.isAccept = true := beq_iff_eq.mpr between
    refine ⟨Char.ofUInt8 b, ?_, ?_⟩
    · rw [State.accumulate, if_pos at_start]
      exact scalar
    · simp [State.step, ascii, at_start]
  · -- One byte is missing, so what the row holds bounds the number that this byte makes whole.
    have held := rests.held
    rw [row_eq_of_accept held.row_mem between accepts] at held
    have valid := held.isValidChar_of_last (Nat.mod_lt b.toNat (by decide))
    rw [← rests.toNat_accumulate between] at valid
    obtain ⟨c, scalar⟩ := exists_scalar valid
    have table : s.row = acceptRow → ¬ b < 0x80 := fun row => absurd row between
    refine ⟨c, scalar, ?_⟩
    rw [step_to_accept s table accepts scalar]

theorem sound (rests : s.Rests) : s.Sound where
  row := rests.held.row_mem
  index b := by
    have row_le := rests.held.toNat_row_le
    have class_lt : (byteClass b).toNat < 12 := UInt8.lt_iff_toNat_lt.mp (byteClass_lt b)
    rw [size_transitions]
    omega
  bits b := by
    by_cases between : s.row = acceptRow
    · have at_start : s.isAccept = true := beq_iff_eq.mpr between
      rw [if_pos at_start, State.accumulate, if_pos at_start]
      exact toNat_leadBits b
    · have inside : ¬ s.isAccept = true := mt beq_iff_eq.mp between
      rw [if_neg inside]
      exact rests.toNat_accumulate between b
  scalar b := rests.scalar

end State.Rests

/-! ### Every decoder -/

/-- A state that bytes and resets lead to. -/
def State.Reached (s : State) : Prop := ∃ inputs, State.start.replay inputs = s

theorem State.reached_start : State.start.Reached := ⟨[], rfl⟩

theorem State.Reached.take {s : State} (reached : s.Reached) (input : Input) :
    (s.take input).Reached := by
  obtain ⟨inputs, rfl⟩ := reached
  refine ⟨inputs ++ [input], ?_⟩
  rw [State.replay, List.foldl_append]
  rfl

theorem State.Reached.sound {s : State} (reached : s.Reached) : s.Sound := by
  obtain ⟨inputs, rfl⟩ := reached
  exact (State.Rests.start.replay inputs).sound

namespace Decoder
variable {σ : Type} [Sink σ] {d : Decoder σ}

/-- Nothing but bytes and resets has come to the state of a decoder, and inside a replaced run it
stands between characters. -/
structure Steady (d : Decoder σ) : Prop where
  state : d.state.Reached
  run : d.replacing = true → d.state.isAccept = true

namespace Steady

theorem decodeByte (steady : d.Steady) (b : UInt8) : (d.decodeByte b).1.Steady := by
  have reached : (d.state.step b).1.Reached := steady.state.take (.bytes [b])
  simp only [Decoder.decodeByte]
  split
  · exact ⟨steady.state, steady.run⟩
  · generalize judged : d.state.step b = result at reached ⊢
    obtain ⟨next, outcome⟩ := result
    cases outcome with
    | accept | pending => exact ⟨reached, fun inside => absurd inside Bool.false_ne_true⟩
    | reject row =>
        obtain rfl := eq_start_of_reject judged
        exact ⟨reached, fun _ => rfl⟩

theorem feed (steady : d.Steady) (bytes : List UInt8) : (d.feed bytes).1.Steady := by
  induction bytes generalizing d with
  | nil => exact steady
  | cons b rest ih =>
      have first := steady.decodeByte b
      rw [feed_cons]
      cases (d.decodeByte b).2 with
      | ok event => exact ih first
      | error e => exact first

theorem feedLimited (steady : d.Steady) (limit : Nat) (bytes : List UInt8) :
    (d.feedLimited limit bytes).1.Steady := by
  have read_by_one (read : List UInt8) : (d.run read).Steady := by
    induction read generalizing d with
    | nil => exact steady
    | cons b rest ih => exact ih (steady.decodeByte b)
  have bounded := bounded_feedLimited d limit bytes
  generalize d.feedLimited limit bytes = result at bounded ⊢
  cases bounded with
  | failed | exceeded | whole => exact read_by_one _

omit [Sink σ] in
theorem run_over (steady : d.Steady) : Steady { d with replacing := false } :=
  ⟨steady.state, fun inside => absurd inside Bool.false_ne_true⟩

theorem replacePending (steady : d.Steady) : d.replacePending.Steady :=
  ⟨steady.state.take .reset, fun _ => rfl⟩

theorem finish (steady : d.Steady) : d.finish.1.Steady := by
  simp only [Decoder.finish]
  split
  · exact steady.run_over
  · exact steady.run_over.replacePending

theorem interruptPending (steady : d.Steady) : d.interruptPending.1.Steady := by
  simp only [Decoder.interruptPending]
  split
  · exact steady.run_over
  · exact steady.run_over.replacePending

theorem append (steady : d.Steady) (cs : List Char) : (d.append cs).1.Steady := by
  have interrupted := steady.interruptPending
  unfold Decoder.append
  generalize d.interruptPending = result at interrupted ⊢
  obtain ⟨d', outcome⟩ := result
  cases outcome with
  | ok => exact ⟨interrupted.state, interrupted.run⟩
  | error e => exact interrupted

theorem replacedText (steady : d.Steady) : d.replacedText.1.Steady := by
  simp only [Decoder.replacedText]
  split
  · exact steady
  · exact steady.replacePending

theorem perform (steady : d.Steady) (op : Op) : (d.perform op).1.Steady := by
  cases op with
  | byte b => exact steady.decodeByte b
  | feed bytes => exact steady.feed bytes
  | feedLimited limit bytes => exact steady.feedLimited limit bytes
  | append cs => exact steady.append cs
  | finish | checkState => exact steady.finish
  | reset => exact ⟨steady.state.take .reset, fun _ => rfl⟩
  | partialText => exact steady
  | takeText | setStrict => exact ⟨steady.state, steady.run⟩
  | replacedText => exact steady.replacedText

theorem performAll (steady : d.Steady) (ops : List Op) : (d.performAll ops).1.Steady := by
  induction ops generalizing d with
  | nil => exact steady
  | cons op rest ih => exact ih (steady.perform op)

end Steady
end Decoder

/-- Whatever bytes and resets a state has been through, it is safe from the next byte: it rests in a
row of its own, the table is read inside its bounds, the accumulator keeps every bit, and what the
table accepts is a character. The state of a decoder that has been through any operations is one of
these, and stands between characters while a run is being replaced. -/
theorem reachable_states_sound :
    (∀ inputs, (State.start.replay inputs).Sound)
      ∧ ∀ (σ : Type) [Sink σ] (sink : σ) (strict : Bool) (ops : List Op),
        let d := (({ sink, strict } : Decoder σ).performAll ops).1
        d.state.Sound ∧ (d.replacing = true → d.state.isAccept = true) := by
  refine ⟨fun inputs => (State.Rests.start.replay inputs).sound, ?_⟩
  intro σ _ sink strict ops d
  have fresh : ({ sink, strict } : Decoder σ).Steady :=
    ⟨State.reached_start, fun inside => absurd inside Bool.false_ne_true⟩
  have steady := fresh.performAll ops
  exact ⟨steady.state.sound, steady.run⟩

/-- The bytes of the last character of all are accepted, behind a reset in the middle of another;
and a byte that shares a placeholder finds the state between characters. -/
theorem reachable_states_sound_at_last_character :
    let s := State.start.replay [.bytes [0xED], .reset, .bytes [0xF4, 0x8F], .bytes [0xBF]]
    let d := (({ sink := "", strict := false } : Decoder String).performAll
      [.feed [0xE2, 0x41], .byte 0x80]).1
    transition (s.row + byteClass 0xBF) = acceptRow
      ∧ (∃ c, scalar? (s.accumulate 0xBF) = some c ∧ (s.step 0xBF).2 = .accept c)
      ∧ d.replacing = true ∧ d.state.isAccept = true := by
  intro s d
  obtain ⟨states, decoders⟩ := reachable_states_sound
  have accepts : transition (s.row + byteClass 0xBF) = acceptRow := by decide +kernel
  have inside : d.replacing = true := by decide +kernel
  exact ⟨accepts, (states _).scalar 0xBF accepts, inside, (decoders String "" false _).2 inside⟩

end Gateway.Utf8
