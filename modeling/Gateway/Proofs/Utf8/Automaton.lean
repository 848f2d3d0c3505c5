import Gateway.Proofs.Utf8.Encoding
import Gateway.Utf8.Automaton

/-!
The automaton against the encoding. A state is the bytes read of one unfinished character; the
next byte completes a character, leaves a longer beginning of one, or goes on with none.
-/
namespace Gateway.Utf8

theorem forall_byte {P : UInt8 → Prop} (h : ∀ n ∈ List.range 256, P (UInt8.ofNat n)) (b : UInt8) :
    P b := by
  have at_b := h b.toNat (List.mem_range.mpr b.toNat_lt)
  rwa [UInt8.ofNat_toNat] at at_b

theorem byteClass_lt (b : UInt8) : byteClass b < 12 := by
  revert b
  apply forall_byte
  decide +kernel

theorem byteClass_tail (b : UInt8) : (byteClass b = 1 ↔ 0x80 ≤ b.toNat ∧ b.toNat < 0x90)
    ∧ (byteClass b = 9 ↔ 0x90 ≤ b.toNat ∧ b.toNat < 0xA0)
    ∧ (byteClass b = 7 ↔ 0xA0 ≤ b.toNat ∧ b.toNat < 0xC0) := by
  revert b
  apply forall_byte
  decide +kernel

def leadBits (b : UInt8) : UInt32 := ((0xFF : UInt32) >>> (byteClass b).toUInt32) &&& b.toUInt32

/-- The row and the bits behind a first byte, by the forms that characters have. -/
theorem lead_byte (b : UInt8) : b < 0x80
    ∨ (0xC2 ≤ b.toNat ∧ b.toNat < 0xE0) ∧ transition (byteClass b) = 24
      ∧ leadBits b = .ofNat (b.toNat - 0xC0)
    ∨ b = 0xE0 ∧ transition (byteClass b) = 48 ∧ leadBits b = .ofNat 0
    ∨ (0xE0 < b.toNat ∧ b.toNat < 0xF0 ∧ b.toNat ≠ 0xED) ∧ transition (byteClass b) = 36
      ∧ leadBits b = .ofNat (b.toNat - 0xE0)
    ∨ b = 0xED ∧ transition (byteClass b) = 60 ∧ leadBits b = .ofNat 0xD
    ∨ b = 0xF0 ∧ transition (byteClass b) = 72 ∧ leadBits b = .ofNat 0
    ∨ (0xF0 < b.toNat ∧ b.toNat < 0xF4) ∧ transition (byteClass b) = 84
      ∧ leadBits b = .ofNat (b.toNat - 0xF0)
    ∨ b = 0xF4 ∧ transition (byteClass b) = 96 ∧ leadBits b = .ofNat 4
    ∨ (b.toNat < 0xC2 ∨ 0xF4 < b.toNat) ∧ transition (byteClass b) = rejectRow := by
  revert b
  apply forall_byte
  decide +kernel

/-- The rows inside a character: each with the classes it takes and the row behind them. -/
def insideRows : List (UInt8 × List UInt8 × UInt8) := [(24, [1, 9, 7], acceptRow),
  (36, [1, 9, 7], 24), (48, [7], 24), (60, [1, 9], 24), (72, [9, 7], 36), (84, [1, 9, 7], 36),
  (96, [1], 36)]

theorem transition_inside {row next : UInt8} {classes : List UInt8}
    (h : (row, classes, next) ∈ insideRows) (b : UInt8) :
    transition (row + byteClass b) = if byteClass b ∈ classes then next else rejectRow := by
  have table : ∀ r ∈ insideRows, ∀ n ∈ List.range 12, transition (r.1 + .ofNat n) =
      if UInt8.ofNat n ∈ r.2.1 then r.2.2 else rejectRow := by
    decide +kernel
  have found := table _ h (byteClass b).toNat
    (List.mem_range.mpr (UInt8.lt_iff_toNat_lt.mp (byteClass_lt b)))
  rwa [UInt8.ofNat_toNat] at found

theorem accumulate_inside {row : UInt8} (hrow : row ≠ acceptRow) {n : Nat} (hn : n < 0x4400)
    (b : UInt8) : (State.mk row (.ofNat n)).accumulate b = .ofNat (n * 64 + b.toNat % 64) := by
  have low : b.toNat &&& 63 = b.toNat % 64 := Nat.and_two_pow_sub_one_eq_mod b.toNat 6
  have inside : (State.mk row (.ofNat n)).isAccept = false := by simpa [State.isAccept] using hrow
  have lt : b.toNat % 64 < 2 ^ 6 := Nat.mod_lt _ (by decide)
  have small : n % 2 ^ 32 = n := Nat.mod_eq_of_lt (by omega)
  have fits : (n * 64 + b.toNat % 64) % 2 ^ 32 = n * 64 + b.toNat % 64 :=
    Nat.mod_eq_of_lt (by omega)
  have shifted : n * 2 ^ (6 % 32) % 2 ^ 32 = 2 ^ 6 * n := by
    have six : 2 ^ (6 % 32) = 64 := by decide
    rw [six, Nat.mod_eq_of_lt (by omega)]
    omega
  apply UInt32.toNat_inj.mp
  rw [State.accumulate, inside]
  simp only [Bool.false_eq_true, if_false, UInt32.toNat_or, UInt32.toNat_and,
    UInt8.toNat_toUInt32, UInt32.toNat_shiftLeft, UInt32.toNat_ofNat', UInt32.reduceToNat, low,
    Nat.shiftLeft_eq, small, shifted, fits]
  rw [Nat.or_comm, ← Nat.two_pow_add_eq_or_of_lt lt n, Nat.mul_comm]

theorem scalar_toNat (c : Char) : scalar? (.ofNat c.toNat) = some c := by
  have same : UInt32.ofNat c.toNat = c.val := UInt32.ofNat_toNat
  rw [same, scalar?, dif_pos c.valid]

section
variable (s : State) {b : UInt8} (hb : s.row = acceptRow → ¬ b < 0x80)
include hb

/-- Without the shortcut for ASCII, a byte is judged by the table. -/
theorem step_by_table : s.step b =
    if transition (s.row + byteClass b) = acceptRow then
      match scalar? (s.accumulate b) with
      | some c => (⟨acceptRow, s.accumulate b⟩, .accept c)
      | none => (.start, .reject s.rowNumber)
    else if transition (s.row + byteClass b) = rejectRow then (.start, .reject s.rowNumber)
    else (⟨transition (s.row + byteClass b), s.accumulate b⟩, .pending) := by
  have table : (b < 0x80 && s.isAccept) = false := by
    by_cases hs : s.row = acceptRow
    · simp [hb hs]
    · simp [State.isAccept, hs]
  rw [State.step, table]
  rfl

theorem step_to_reject (h : transition (s.row + byteClass b) = rejectRow) :
    s.step b = (.start, .reject s.rowNumber) := by
  rw [step_by_table s hb, h, if_neg (by decide), if_pos rfl]

theorem step_to_row {next : UInt8} (h : transition (s.row + byteClass b) = next)
    (ha : next ≠ acceptRow) (hr : next ≠ rejectRow) :
    s.step b = (⟨next, s.accumulate b⟩, .pending) := by
  rw [step_by_table s hb, h, if_neg ha, if_neg hr]

theorem step_to_accept {c : Char} (h : transition (s.row + byteClass b) = acceptRow)
    (hc : scalar? (s.accumulate b) = some c) :
    s.step b = (⟨acceptRow, s.accumulate b⟩, .accept c) := by
  rw [step_by_table s hb, h, if_pos rfl, hc]

end

/-- The bytes read of an unfinished character, and the state they leave. -/
inductive Reads : List UInt8 → State → Prop
  | nothing (codepoint : UInt32) : Reads [] ⟨acceptRow, codepoint⟩
  | two {n : Nat} : 0x2 ≤ n → n < 0x20 → Reads [.ofNat (0xC0 + n)] ⟨24, .ofNat n⟩
  | three {n : Nat} : 0x1 ≤ n → n < 0x10 → n ≠ 0xD → Reads [.ofNat (0xE0 + n)] ⟨36, .ofNat n⟩
  | afterE0 : Reads [.ofNat 0xE0] ⟨48, .ofNat 0⟩
  | afterED : Reads [.ofNat 0xED] ⟨60, .ofNat 0xD⟩
  | threeTwo {n : Nat} : 0x20 ≤ n → n < 0x400 → n / 0x20 ≠ 0x1B →
      Reads [.ofNat (0xE0 + n / 64), .ofNat (0x80 + n % 64)] ⟨24, .ofNat n⟩
  | four {n : Nat} : 0x1 ≤ n → n < 0x4 → Reads [.ofNat (0xF0 + n)] ⟨84, .ofNat n⟩
  | afterF0 : Reads [.ofNat 0xF0] ⟨72, .ofNat 0⟩
  | afterF4 : Reads [.ofNat 0xF4] ⟨96, .ofNat 4⟩
  | fourTwo {n : Nat} : 0x10 ≤ n → n < 0x110 →
      Reads [.ofNat (0xF0 + n / 64), .ofNat (0x80 + n % 64)] ⟨36, .ofNat n⟩
  | fourThree {n : Nat} : 0x400 ≤ n → n < 0x4400 →
      Reads [.ofNat (0xF0 + n / 4096), .ofNat (0x80 + n / 64 % 64), .ofNat (0x80 + n % 64)]
        ⟨24, .ofNat n⟩

theorem Reads.of_eq {read other : List UInt8} {s : State} (h : Reads other s)
    (eq : read = other) : Reads read s := eq ▸ h

theorem Reads.of_row {s : State} (row : s.row = acceptRow) : Reads [] s := by
  have nothing := Reads.nothing s.codepoint
  rwa [← row] at nothing

theorem Reads.row_eq_accept_iff {read : List UInt8} {s : State} (h : Reads read s) :
    s.row = acceptRow ↔ read = [] := by
  cases h <;> simp [acceptRow]

theorem Reads.isAccept_iff {read : List UInt8} {s : State} (h : Reads read s) :
    s.isAccept = true ↔ read = [] := by
  rw [← h.row_eq_accept_iff, State.isAccept, beq_iff_eq]

theorem Reads.unfinished {read : List UInt8} {s : State} (h : Reads read s) :
    read = [] ∨ ∃ c b rest, String.utf8EncodeChar c = read ++ b :: rest := by
  cases h with
  | nothing => exact .inl rfl
  | @two n low high =>
      obtain ⟨c, -, eq⟩ := Text.exists_two (n := n * 64) (by omega)
      rw [Nat.mul_div_cancel n (by decide)] at eq
      exact .inr ⟨c, _, _, eq⟩
  | @three n low high surrogates =>
      obtain ⟨c, -, eq⟩ := Text.exists_three (n := n * 4096) (by omega) (by omega)
      rw [Nat.mul_div_cancel n (by decide)] at eq
      exact .inr ⟨c, _, _, eq⟩
  | afterE0 =>
      obtain ⟨c, -, eq⟩ := Text.exists_three (n := 0x800) (by decide) (by decide)
      exact .inr ⟨c, _, _, eq⟩
  | afterED =>
      obtain ⟨c, -, eq⟩ := Text.exists_three (n := 0xD000) (by decide) (by decide)
      exact .inr ⟨c, _, _, eq⟩
  | @threeTwo n low high surrogates =>
      obtain ⟨c, -, eq⟩ := Text.exists_three (n := n * 64) (by omega) (by omega)
      rw [Nat.mul_div_cancel n (by decide), show n * 64 / 4096 = n / 64 by omega] at eq
      exact .inr ⟨c, _, _, eq⟩
  | @four n low high =>
      obtain ⟨c, -, eq⟩ := Text.exists_four (n := n * 262144) (by omega)
      rw [Nat.mul_div_cancel n (by decide)] at eq
      exact .inr ⟨c, _, _, eq⟩
  | afterF0 =>
      obtain ⟨c, -, eq⟩ := Text.exists_four (n := 0x10000) (by decide)
      exact .inr ⟨c, _, _, eq⟩
  | afterF4 =>
      obtain ⟨c, -, eq⟩ := Text.exists_four (n := 0x100000) (by decide)
      exact .inr ⟨c, _, _, eq⟩
  | @fourTwo n low high =>
      obtain ⟨c, -, eq⟩ := Text.exists_four (n := n * 4096) (by omega)
      rw [Nat.mul_div_cancel n (by decide), show n * 4096 / 262144 = n / 64 by omega] at eq
      exact .inr ⟨c, _, _, eq⟩
  | @fourThree n low high =>
      obtain ⟨c, -, eq⟩ := Text.exists_four (n := n * 64) (by omega)
      rw [Nat.mul_div_cancel n (by decide), show n * 64 / 262144 = n / 4096 by omega,
        show n * 64 / 4096 = n / 64 by omega] at eq
      exact .inr ⟨c, _, _, eq⟩

theorem Reads.stuck {read : List UInt8} {s : State} (h : Reads read s) : Text.Stuck read := by
  rcases h.unfinished with rfl | ⟨c, b, rest, eq⟩
  · exact Text.stuck_nil
  · refine Text.stuck_of_prefix (c := c) ⟨b :: rest, eq.symm⟩ ?_
    intro same
    rw [← same] at eq
    exact absurd (List.append_right_eq_self.mp eq.symm) (List.cons_ne_nil b rest)

/-- What a byte does after others of an unfinished character. -/
inductive Judged (read : List UInt8) (row : UInt8) (b : UInt8) : State × Step → Prop
  | accept {s : State} {c : Char} : s.row = acceptRow → read ++ [b] = String.utf8EncodeChar c →
      Judged read row b (s, .accept c)
  | pending {s : State} : Reads (read ++ [b]) s → Judged read row b (s, .pending)
  | reject : (∀ c, ¬ read ++ [b] <+: String.utf8EncodeChar c) →
      Judged read row b (State.start, .reject row)

/-- A state inside a character: what its row takes goes on with the character, nothing else
does. -/
theorem judged_inside {read classes : List UInt8} {row next : UInt8} {n : Nat} {b : UInt8}
    (hrow : (row, classes, next) ∈ insideRows) (hn : n < 0x4400)
    (takes : byteClass b ∈ classes → (next = acceptRow ∧ ∃ c : Char, c.toNat = n * 64 + b.toNat % 64
        ∧ read ++ [b] = String.utf8EncodeChar c)
      ∨ Reads (read ++ [b]) ⟨next, .ofNat (n * 64 + b.toNat % 64)⟩)
    (refuses : byteClass b ∉ classes → ∀ c, ¬ read ++ [b] <+: String.utf8EncodeChar c) :
    Judged read (row / 12) b ((State.mk row (.ofNat n)).step b) := by
  have inside : row ≠ acceptRow ∧ next ≠ rejectRow := by
    have all : ∀ r ∈ insideRows, r.1 ≠ acceptRow ∧ r.2.2 ≠ rejectRow := by decide
    exact all _ hrow
  have next_row := transition_inside hrow b
  have table : (State.mk row (.ofNat n)).row = acceptRow → ¬ b < 0x80 := by
    intro ha
    exact absurd ha inside.1
  by_cases hb : byteClass b ∈ classes
  · rw [if_pos hb] at next_row
    rcases takes hb with ⟨rfl, c, hc, bytes⟩ | reads
    · have scalar : scalar? ((State.mk row (.ofNat n)).accumulate b) = some c := by
        rw [accumulate_inside inside.1 hn, ← hc, scalar_toNat]
      rw [step_to_accept ⟨row, .ofNat n⟩ table next_row scalar]
      exact .accept rfl bytes
    · have ha : next ≠ acceptRow := by
        intro ha
        have none_read := reads.row_eq_accept_iff.mp ha
        exact List.append_ne_nil_of_right_ne_nil read (List.cons_ne_nil b []) none_read
      rw [step_to_row ⟨row, .ofNat n⟩ table next_row ha inside.2, accumulate_inside inside.1 hn]
      exact .pending reads
  · rw [if_neg hb] at next_row
    rw [step_to_reject ⟨row, .ofNat n⟩ table next_row]
    exact .reject (refuses hb)

theorem judged_start (codepoint : UInt32) (b : UInt8) :
    Judged [] (State.mk acceptRow codepoint).rowNumber b
      ((State.mk acceptRow codepoint).step b) := by
  by_cases ascii : b < 0x80
  · have step : (State.mk acceptRow codepoint).step b
        = (⟨acceptRow, 0⟩, .accept (Char.ofUInt8 b)) := by
      simp [State.step, State.isAccept, ascii]
    rw [step]
    exact .accept rfl (Text.encodeChar_ascii ascii).symm
  · have table : (State.mk acceptRow codepoint).row = acceptRow → ¬ b < 0x80 := fun _ => ascii
    have row (r : UInt8) (h : transition (byteClass b) = r) :
        transition ((State.mk acceptRow codepoint).row + byteClass b) = r := by
      rw [← h]
      exact congrArg transition (UInt8.zero_add _)
    have bits : (State.mk acceptRow codepoint).accumulate b = leadBits b := rfl
    have pending (r : UInt8) (n : Nat) (h : transition (byteClass b) = r)
        (hb : leadBits b = .ofNat n) (hr : r ≠ acceptRow ∧ r ≠ rejectRow)
        (reads : Reads [b] ⟨r, .ofNat n⟩) : Judged [] (State.mk acceptRow codepoint).rowNumber b
          ((State.mk acceptRow codepoint).step b) := by
      rw [step_to_row _ table (row r h) hr.1 hr.2, bits, hb]
      exact .pending reads
    rcases lead_byte b with h | ⟨range, hr, hb⟩ | ⟨rfl, hr, hb⟩ | ⟨range, hr, hb⟩ | ⟨rfl, hr, hb⟩
      | ⟨rfl, hr, hb⟩ | ⟨range, hr, hb⟩ | ⟨rfl, hr, hb⟩ | ⟨range, hr⟩
    · exact absurd h ascii
    · refine pending 24 _ hr hb (by decide) ((Reads.two (by omega) (by omega)).of_eq ?_)
      rw [Nat.add_sub_cancel' (by omega), UInt8.ofNat_toNat]
    · exact pending 48 _ hr hb (by decide) .afterE0
    · refine pending 36 _ hr hb (by decide)
        ((Reads.three (by omega) (by omega) (by omega)).of_eq ?_)
      rw [Nat.add_sub_cancel' (by omega), UInt8.ofNat_toNat]
    · exact pending 60 _ hr hb (by decide) .afterED
    · exact pending 72 _ hr hb (by decide) .afterF0
    · refine pending 84 _ hr hb (by decide) ((Reads.four (by omega) (by omega)).of_eq ?_)
      rw [Nat.add_sub_cancel' (by omega), UInt8.ofNat_toNat]
    · exact pending 96 _ hr hb (by decide) .afterF4
    · rw [step_to_reject _ table (row _ hr)]
      apply Judged.reject
      intro c hc
      have first := Text.first_byte hc
      have low : ¬ b.toNat < 0x80 := fun h => ascii (UInt8.lt_iff_toNat_lt.mpr h)
      omega

section
variable {n : Nat} {b : UInt8} (tail : 0x80 ≤ b.toNat ∧ b.toNat < 0xC0)
include tail

-- What `b` adds to `n` can be taken apart again.
theorem ofNat_tail : UInt8.ofNat (0x80 + (n * 64 + b.toNat % 64) % 64) = b := by
  rw [← UInt8.toNat_inj, UInt8.toNat_ofNat']
  omega

theorem reads_threeTwo (low : 0x20 ≤ n * 64 + b.toNat % 64) (high : n < 0x10)
    (surrogates : (n * 64 + b.toNat % 64) / 0x20 ≠ 0x1B) :
    Reads ([.ofNat (0xE0 + n)] ++ [b]) ⟨24, .ofNat (n * 64 + b.toNat % 64)⟩ := by
  apply (Reads.threeTwo low (by omega) surrogates).of_eq
  rw [ofNat_tail tail, show (n * 64 + b.toNat % 64) / 64 = n by omega]
  rfl

theorem reads_fourTwo (low : 0x10 ≤ n * 64 + b.toNat % 64)
    (high : n * 64 + b.toNat % 64 < 0x110) :
    Reads ([.ofNat (0xF0 + n)] ++ [b]) ⟨36, .ofNat (n * 64 + b.toNat % 64)⟩ := by
  apply (Reads.fourTwo low high).of_eq
  rw [ofNat_tail tail, show (n * 64 + b.toNat % 64) / 64 = n by omega]
  rfl

theorem reads_fourThree (low : 0x10 ≤ n) (high : n < 0x110) :
    Reads ([.ofNat (0xF0 + n / 64), .ofNat (0x80 + n % 64)] ++ [b])
      ⟨24, .ofNat (n * 64 + b.toNat % 64)⟩ := by
  apply (Reads.fourThree (n := n * 64 + b.toNat % 64) (by omega) (by omega)).of_eq
  rw [ofNat_tail tail, show (n * 64 + b.toNat % 64) / 4096 = n / 64 by omega,
    show (n * 64 + b.toNat % 64) / 64 = n by omega]
  rfl

theorem whole_two (low : 0x2 ≤ n) (high : n < 0x20) : ∃ c : Char,
    c.toNat = n * 64 + b.toNat % 64 ∧ [.ofNat (0xC0 + n)] ++ [b] = String.utf8EncodeChar c := by
  obtain ⟨c, hc, eq⟩ := Text.exists_two (n := n * 64 + b.toNat % 64) (by omega)
  refine ⟨c, hc, ?_⟩
  rw [eq, ofNat_tail tail, show (n * 64 + b.toNat % 64) / 64 = n by omega]
  rfl

theorem whole_three (low : 0x20 ≤ n) (high : n < 0x400) (surrogates : n / 0x20 ≠ 0x1B) :
    ∃ c : Char, c.toNat = n * 64 + b.toNat % 64
      ∧ [.ofNat (0xE0 + n / 64), .ofNat (0x80 + n % 64)] ++ [b] = String.utf8EncodeChar c := by
  obtain ⟨c, hc, eq⟩ := Text.exists_three (n := n * 64 + b.toNat % 64) (by omega) (by omega)
  refine ⟨c, hc, ?_⟩
  rw [eq, ofNat_tail tail, show (n * 64 + b.toNat % 64) / 4096 = n / 64 by omega,
    show (n * 64 + b.toNat % 64) / 64 = n by omega]
  rfl

theorem whole_four (low : 0x400 ≤ n) (high : n < 0x4400) : ∃ c : Char,
    c.toNat = n * 64 + b.toNat % 64
      ∧ [.ofNat (0xF0 + n / 4096), .ofNat (0x80 + n / 64 % 64), .ofNat (0x80 + n % 64)] ++ [b]
        = String.utf8EncodeChar c := by
  obtain ⟨c, hc, eq⟩ := Text.exists_four (n := n * 64 + b.toNat % 64) (by omega)
  refine ⟨c, hc, ?_⟩
  rw [eq, ofNat_tail tail, show (n * 64 + b.toNat % 64) / 262144 = n / 4096 by omega,
    show (n * 64 + b.toNat % 64) / 4096 = n / 64 by omega,
    show (n * 64 + b.toNat % 64) / 64 = n by omega]
  rfl

end

/-- The classes that the rows inside a character take, as bytes. -/
theorem mem_classes (b : UInt8) : (byteClass b ∈ [1, 9, 7] ↔ 0x80 ≤ b.toNat ∧ b.toNat < 0xC0)
    ∧ (byteClass b ∈ [7] ↔ 0xA0 ≤ b.toNat ∧ b.toNat < 0xC0)
    ∧ (byteClass b ∈ [1, 9] ↔ 0x80 ≤ b.toNat ∧ b.toNat < 0xA0)
    ∧ (byteClass b ∈ [9, 7] ↔ 0x90 ≤ b.toNat ∧ b.toNat < 0xC0)
    ∧ (byteClass b ∈ [1] ↔ 0x80 ≤ b.toNat ∧ b.toNat < 0x90) := by
  obtain ⟨one, nine, seven⟩ := byteClass_tail b
  simp only [List.mem_cons, List.not_mem_nil, or_false, one, nine, seven]
  refine ⟨?_, trivial, ?_, ?_, trivial⟩
  all_goals omega

section
variable {first row next : UInt8} {read classes : List UInt8} {n low high : Nat} {b : UInt8}

/-- A row that takes the bytes in one range, where nothing else goes on with a character. -/
theorem judged_within (hrow : (row, classes, next) ∈ insideRows) (hn : n < 0x4400)
    (takes : byteClass b ∈ classes ↔ low ≤ b.toNat ∧ b.toNat < high)
    (needs : ∀ c, first :: read ++ [b] <+: String.utf8EncodeChar c →
      low ≤ b.toNat ∧ b.toNat < high)
    (reads : low ≤ b.toNat ∧ b.toNat < high →
      Reads (first :: read ++ [b]) ⟨next, .ofNat (n * 64 + b.toNat % 64)⟩) :
    Judged (first :: read) (row / 12) b ((State.mk row (.ofNat n)).step b) :=
  judged_inside hrow hn (fun hb => .inr (reads (takes.mp hb)))
    (fun hb c hc => hb (takes.mpr (needs c hc)))

/-- One byte is missing, and any that goes on makes a character of what was read. -/
theorem judged_last (hn : n < 0x4400) (whole : 0x80 ≤ b.toNat ∧ b.toNat < 0xC0 → ∃ c : Char,
      c.toNat = n * 64 + b.toNat % 64 ∧ first :: read ++ [b] = String.utf8EncodeChar c) :
    Judged (first :: read) (24 / 12) b ((State.mk 24 (.ofNat n)).step b) :=
  judged_inside (show (24, [1, 9, 7], acceptRow) ∈ insideRows by decide) hn
    (fun hb => .inl ⟨rfl, whole ((mem_classes b).1.mp hb)⟩)
    (fun hb _ hc => hb ((mem_classes b).1.mpr (Text.later_byte hc)))

end

/-- One byte, one case for each state. -/
theorem Reads.judged {read : List UInt8} {s : State} (h : Reads read s) (b : UInt8) :
    Judged read s.rowNumber b (s.step b) := by
  obtain ⟨all, fromA0, toA0, from90, to90⟩ := mem_classes b
  cases h with
  | nothing codepoint => exact judged_start codepoint b
  | two low high => exact judged_last (by omega) (fun tail => whole_two tail low high)
  | three low high surrogates =>
      exact judged_within (show (36, [1, 9, 7], 24) ∈ insideRows by decide) (by omega) all
        (fun _ hc => Text.later_byte hc)
        (fun tail => reads_threeTwo tail (by omega) high (by omega))
  | afterE0 =>
      refine judged_within (show (48, [7], 24) ∈ insideRows by decide) (by decide) fromA0
        (fun c hc => ?_) (fun tail => ?_)
      · obtain ⟨tail, above, -⟩ := Text.second_byte hc
        exact ⟨above rfl, tail.2⟩
      · exact reads_threeTwo (n := 0) (by omega) (by omega) (by omega) (by omega)
  | afterED =>
      refine judged_within (show (60, [1, 9], 24) ∈ insideRows by decide) (by decide) toA0
        (fun c hc => ?_) (fun tail => ?_)
      · obtain ⟨tail, -, below, -⟩ := Text.second_byte hc
        exact ⟨tail.1, below rfl⟩
      · exact reads_threeTwo (n := 0xD) (by omega) (by omega) (by omega) (by omega)
  | threeTwo low high surrogates =>
      exact judged_last (by omega) (fun tail => whole_three tail low high surrogates)
  | four low high =>
      exact judged_within (show (84, [1, 9, 7], 36) ∈ insideRows by decide) (by omega) all
        (fun _ hc => Text.later_byte hc)
        (fun tail => reads_fourTwo tail (by omega) (by omega))
  | afterF0 =>
      refine judged_within (show (72, [9, 7], 36) ∈ insideRows by decide) (by decide) from90
        (fun c hc => ?_) (fun tail => ?_)
      · obtain ⟨tail, -, -, above, -⟩ := Text.second_byte hc
        exact ⟨above rfl, tail.2⟩
      · exact reads_fourTwo (n := 0) (by omega) (by omega) (by omega)
  | afterF4 =>
      refine judged_within (show (96, [1], 36) ∈ insideRows by decide) (by decide) to90
        (fun c hc => ?_) (fun tail => ?_)
      · obtain ⟨tail, -, -, -, below⟩ := Text.second_byte hc
        exact ⟨tail.1, below rfl⟩
      · exact reads_fourTwo (n := 4) (by omega) (by omega) (by omega)
  | fourTwo low high =>
      exact judged_within (show (36, [1, 9, 7], 24) ∈ insideRows by decide) (by omega) all
        (fun _ hc => Text.later_byte hc) (fun tail => reads_fourThree tail low high)
  | fourThree low high =>
      exact judged_last (by omega) (fun tail => whole_four tail low high)

end Gateway.Utf8
