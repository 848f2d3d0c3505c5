import Gateway.Text.Bytes

/-!
The bytes of characters as a code. A character's bytes have one of four forms, given by its code
point alone, and no character's bytes are the beginning of another's. So a list of bytes splits in
one way only into characters and a rest that begins with none. Bytes keep the order of code points.
-/
namespace Gateway.Text

theorem encode_cons (c : Char) (cs : List Char) :
    encode (c :: cs) = String.utf8EncodeChar c ++ encode cs := rfl

theorem encodeChar_append_inj {c d : Char} {r s : List UInt8}
    (h : String.utf8EncodeChar c ++ r = String.utf8EncodeChar d ++ s) : c = d ∧ r = s := by
  have same : c = d := by
    have hc := ByteArray.utf8DecodeChar?_utf8EncodeChar_append (b := r.toByteArray) (c := c)
    have hd := ByteArray.utf8DecodeChar?_utf8EncodeChar_append (b := s.toByteArray) (c := d)
    rw [← List.toByteArray_append, h, List.toByteArray_append, hd] at hc
    exact (Option.some.inj hc).symm
  subst same
  exact ⟨rfl, List.append_cancel_left h⟩

theorem encodeChar_ne_nil (c : Char) : String.utf8EncodeChar c ≠ [] := by
  intro h
  have length := congrArg List.length h
  rw [String.length_utf8EncodeChar] at length
  exact absurd c.utf8Size_pos (by simp [length])

/-- The four forms of a character's bytes, each with the code points that have it. -/
theorem encodeChar_forms (c : Char) :
    c.toNat < 0x80 ∧ String.utf8EncodeChar c = [.ofNat c.toNat]
      ∨ (0x80 ≤ c.toNat ∧ c.toNat < 0x800) ∧ String.utf8EncodeChar c
          = [.ofNat (0xC0 + c.toNat / 64), .ofNat (0x80 + c.toNat % 64)]
      ∨ (0x800 ≤ c.toNat ∧ c.toNat < 0x10000 ∧ c.toNat / 0x800 ≠ 0x1B)
          ∧ String.utf8EncodeChar c = [.ofNat (0xE0 + c.toNat / 4096),
            .ofNat (0x80 + c.toNat / 64 % 64), .ofNat (0x80 + c.toNat % 64)]
      ∨ (0x10000 ≤ c.toNat ∧ c.toNat < 0x110000) ∧ String.utf8EncodeChar c
          = [.ofNat (0xF0 + c.toNat / 262144), .ofNat (0x80 + c.toNat / 4096 % 64),
            .ofNat (0x80 + c.toNat / 64 % 64), .ofNat (0x80 + c.toNat % 64)] := by
  have valid := c.valid
  have number : c.toNat = c.val.toNat := rfl
  simp only [UInt32.isValidChar, Nat.isValidChar] at valid
  simp only [number, String.utf8EncodeChar]
  generalize c.val.toNat = n at valid
  split
  · exact .inl ⟨by omega, rfl⟩
  · split
    · refine .inr (.inl ⟨by omega, ?_⟩)
      rw [Nat.mod_eq_of_lt (by omega), Nat.add_comm, Nat.add_comm (n % 64)]
    · split
      · refine .inr (.inr (.inl ⟨by omega, ?_⟩))
        rw [Nat.mod_eq_of_lt (by omega), Nat.add_comm, Nat.add_comm (n / 64 % 64),
          Nat.add_comm (n % 64)]
      · refine .inr (.inr (.inr ⟨by omega, ?_⟩))
        rw [Nat.mod_eq_of_lt (by omega), Nat.add_comm, Nat.add_comm (n / 4096 % 64),
          Nat.add_comm (n / 64 % 64), Nat.add_comm (n % 64)]

theorem exists_char {n : Nat} (h : n.isValidChar) : ∃ c : Char, c.toNat = n := by
  have lt : n < 2 ^ 32 := by
    simp only [Nat.isValidChar] at h
    omega
  have same : (UInt32.ofNat n).toNat = n := UInt32.toNat_ofNat_of_lt' lt
  have valid : (UInt32.ofNat n).isValidChar := by simpa only [UInt32.isValidChar, same] using h
  exact ⟨⟨.ofNat n, valid⟩, same⟩

theorem exists_two {n : Nat} (h : 0x80 ≤ n ∧ n < 0x800) : ∃ c : Char, c.toNat = n
    ∧ String.utf8EncodeChar c = [.ofNat (0xC0 + n / 64), .ofNat (0x80 + n % 64)] := by
  obtain ⟨c, rfl⟩ := exists_char (n := n) (by simp only [Nat.isValidChar]; omega)
  rcases encodeChar_forms c with ⟨hc, eq⟩ | ⟨hc, eq⟩ | ⟨hc, eq⟩ | ⟨hc, eq⟩
  all_goals first | omega | exact ⟨c, rfl, eq⟩

theorem exists_three {n : Nat} (h : 0x800 ≤ n ∧ n < 0x10000) (hs : n / 0x800 ≠ 0x1B) :
    ∃ c : Char, c.toNat = n ∧ String.utf8EncodeChar c
      = [.ofNat (0xE0 + n / 4096), .ofNat (0x80 + n / 64 % 64), .ofNat (0x80 + n % 64)] := by
  obtain ⟨c, rfl⟩ := exists_char (n := n) (by simp only [Nat.isValidChar]; omega)
  rcases encodeChar_forms c with ⟨hc, eq⟩ | ⟨hc, eq⟩ | ⟨hc, eq⟩ | ⟨hc, eq⟩
  all_goals first | omega | exact ⟨c, rfl, eq⟩

theorem exists_four {n : Nat} (h : 0x10000 ≤ n ∧ n < 0x110000) :
    ∃ c : Char, c.toNat = n ∧ String.utf8EncodeChar c
      = [.ofNat (0xF0 + n / 262144), .ofNat (0x80 + n / 4096 % 64), .ofNat (0x80 + n / 64 % 64),
        .ofNat (0x80 + n % 64)] := by
  obtain ⟨c, rfl⟩ := exists_char (n := n) (by simp only [Nat.isValidChar]; omega)
  rcases encodeChar_forms c with ⟨hc, eq⟩ | ⟨hc, eq⟩ | ⟨hc, eq⟩ | ⟨hc, eq⟩
  all_goals first | omega | exact ⟨c, rfl, eq⟩

theorem encodeChar_ascii {b : UInt8} (h : b < 0x80) :
    String.utf8EncodeChar (Char.ofUInt8 b) = [b] := by
  have lt : b.toNat < 0x80 := UInt8.lt_iff_toNat_lt.mp h
  have same : (Char.ofUInt8 b).toNat = b.toNat := rfl
  rcases encodeChar_forms (Char.ofUInt8 b) with ⟨hc, eq⟩ | ⟨hc, eq⟩ | ⟨hc, eq⟩ | ⟨hc, eq⟩
  · rw [eq, same, UInt8.ofNat_toNat]
  all_goals omega

theorem le_of_mem_encodeChar {b : UInt8} {c : Char} (beyond : 0x80 ≤ c.toNat)
    (among : b ∈ String.utf8EncodeChar c) : 0x80 ≤ b.toNat := by
  rcases encodeChar_forms c with ⟨hc, eq⟩ | ⟨hc, eq⟩ | ⟨hc, eq⟩ | ⟨hc, eq⟩
  all_goals
    rw [eq] at among
    simp only [List.mem_cons, List.not_mem_nil, ← UInt8.toNat_inj, UInt8.toNat_ofNat',
      or_false] at among
    omega

/-- A test on code points that does not tell those beyond ASCII apart can be put to the bytes. -/
theorem all_encodeChar_iff {test : UInt8 → Bool} {allowed : Nat → Prop}
    (same : ∀ b, test b = true ↔ allowed b.toNat)
    (alike : (∀ n, 0x80 ≤ n → allowed n) ∨ ∀ n, 0x80 ≤ n → ¬ allowed n) (c : Char) :
    (String.utf8EncodeChar c).all test = true ↔ allowed c.toNat := by
  simp only [List.all_eq_true, same]
  rcases Nat.lt_or_ge c.toNat 0x80 with ascii | beyond
  · obtain ⟨-, eq⟩ | ⟨⟨wide, -⟩, -⟩ | ⟨⟨wide, -⟩, -⟩ | ⟨⟨wide, -⟩, -⟩ := encodeChar_forms c
    · rw [eq, List.forall_mem_singleton, UInt8.toNat_ofNat_of_lt' (Nat.lt_trans ascii (by decide))]
    all_goals omega
  · obtain ⟨b, rest, split⟩ := List.exists_cons_of_ne_nil (encodeChar_ne_nil c)
    have first : b ∈ String.utf8EncodeChar c := by simp [split]
    rcases alike with all | none
    · exact iff_of_true (fun b among => all _ (le_of_mem_encodeChar beyond among)) (all _ beyond)
    · exact iff_of_false (fun every => none _ (le_of_mem_encodeChar beyond first) (every b first))
        (none _ beyond)

theorem first_byte {b : UInt8} {c : Char} (h : [b] <+: String.utf8EncodeChar c) :
    b.toNat < 0x80 ∨ 0xC2 ≤ b.toNat ∧ b.toNat ≤ 0xF4 := by
  rcases encodeChar_forms c with ⟨hc, eq⟩ | ⟨hc, eq⟩ | ⟨hc, eq⟩ | ⟨hc, eq⟩
  all_goals
    rw [eq] at h
    simp only [List.cons_prefix_cons, ← UInt8.toNat_inj, UInt8.toNat_ofNat'] at h
    omega

/-- Shortest form, no surrogates and the last code point each narrow the second byte behind one
first byte. -/
theorem second_byte {a b : UInt8} {c : Char} (h : [a, b] <+: String.utf8EncodeChar c) :
    (0x80 ≤ b.toNat ∧ b.toNat < 0xC0) ∧ (a.toNat = 0xE0 → 0xA0 ≤ b.toNat)
      ∧ (a.toNat = 0xED → b.toNat < 0xA0) ∧ (a.toNat = 0xF0 → 0x90 ≤ b.toNat)
      ∧ (a.toNat = 0xF4 → b.toNat < 0x90) := by
  rcases encodeChar_forms c with ⟨hc, eq⟩ | ⟨hc, eq⟩ | ⟨hc, eq⟩ | ⟨hc, eq⟩
  all_goals
    rw [eq] at h
    simp only [List.cons_prefix_cons, ← UInt8.toNat_inj, UInt8.toNat_ofNat', List.prefix_nil,
      reduceCtorEq, and_false] at h
  all_goals omega

theorem later_byte {a b : UInt8} {read : List UInt8} {c : Char}
    (h : a :: read ++ [b] <+: String.utf8EncodeChar c) : 0x80 ≤ b.toNat ∧ b.toNat < 0xC0 := by
  have behind : b ∈ (String.utf8EncodeChar c).tail := by
    obtain ⟨rest, eq⟩ := h
    rw [← eq]
    simp
  rcases encodeChar_forms c with ⟨hc, eq⟩ | ⟨hc, eq⟩ | ⟨hc, eq⟩ | ⟨hc, eq⟩
  all_goals
    rw [eq] at behind
    simp only [List.tail_cons, List.mem_cons, List.not_mem_nil, ← UInt8.toNat_inj,
      UInt8.toNat_ofNat', or_false] at behind
  all_goals omega

/-- No character stands at the front. -/
def Stuck (bytes : List UInt8) : Prop := ∀ c, ¬ String.utf8EncodeChar c <+: bytes

theorem stuck_nil : Stuck [] := by
  intro c h
  exact encodeChar_ne_nil c (List.prefix_nil.mp h)

theorem stuck_of_prefix {bytes : List UInt8} {c : Char} (h : bytes <+: String.utf8EncodeChar c)
    (proper : bytes ≠ String.utf8EncodeChar c) : Stuck bytes := by
  intro d hd
  obtain ⟨rest, eq⟩ := hd.trans h
  have same : d = c :=
    (encodeChar_append_inj (r := rest) (s := []) (by rw [eq, List.append_nil])).1
  subst same
  exact proper (h.eq_of_length_le hd.length_le)

theorem stuck_of_refused {read rest : List UInt8} {b : UInt8} (h : Stuck read)
    (refused : ∀ c, ¬ read ++ [b] <+: String.utf8EncodeChar c) : Stuck (read ++ b :: rest) := by
  intro c hc
  have front : read ++ [b] <+: read ++ b :: rest := ⟨rest, by simp⟩
  rcases List.prefix_or_prefix_of_prefix hc front with within | beyond
  · rcases List.prefix_concat_iff.mp within with same | earlier
    · rw [← same] at refused
      exact refused c List.prefix_rfl
    · exact h c earlier
  · exact refused c beyond

/-- The characters in front of a rest that begins with none are all that can be read. -/
theorem prefix_of_encode_prefix {cs ds : List Char} {rest : List UInt8}
    (h : encode ds <+: encode cs ++ rest) (hr : Stuck rest) : ds <+: cs := by
  induction ds generalizing cs with
  | nil => exact List.nil_prefix
  | cons d ds ih =>
      obtain ⟨tail, eq⟩ := h
      rw [encode_cons, List.append_assoc] at eq
      cases cs with
      | nil => exact absurd ⟨_, eq⟩ (hr d)
      | cons c cs =>
          rw [encode_cons, List.append_assoc] at eq
          obtain ⟨rfl, same⟩ := encodeChar_append_inj eq
          exact (List.prefix_cons_inj d).mpr (ih ⟨tail, same⟩)

theorem encode_eq_append_iff {cs ds : List Char} {rest : List UInt8} (hr : Stuck rest) :
    encode ds = encode cs ++ rest ↔ ds = cs ∧ rest = [] := by
  constructor
  · intro h
    have within : encode ds <+: encode cs ++ rest := ⟨[], by rw [List.append_nil, h]⟩
    obtain ⟨more, rfl⟩ := prefix_of_encode_prefix within hr
    rw [encode_append, List.append_assoc] at h
    have none_left := List.append_right_eq_self.mp h.symm
    obtain ⟨no_more, no_rest⟩ := List.append_eq_nil_iff.mp none_left
    cases more with
    | nil => exact ⟨(List.append_nil ds).symm, no_rest⟩
    | cons c more => exact absurd (List.append_eq_nil_iff.mp no_more).1 (encodeChar_ne_nil c)
  · rintro ⟨rfl, rfl⟩
    exact (List.append_nil _).symm

theorem encode_injective {cs ds : List Char} (h : encode cs = encode ds) : cs = ds :=
  ((encode_eq_append_iff stuck_nil).mp (h.trans (List.append_nil _).symm)).1

/-! ### Order -/

theorem compare_encodeChar_append {c d : Char} (lower : c.toNat < d.toNat) (r s : List UInt8) :
    compare (String.utf8EncodeChar c ++ r) (String.utf8EncodeChar d ++ s) = .lt := by
  have below (m n : Nat) : compare (UInt8.ofNat m) (UInt8.ofNat n) = .lt ↔ m % 256 < n % 256 := by
    rw [Std.compare_eq_lt, UInt8.lt_iff_toNat_lt, UInt8.toNat_ofNat', UInt8.toNat_ofNat']
  have same (m n : Nat) : compare (UInt8.ofNat m) (UInt8.ofNat n) = .eq ↔ m % 256 = n % 256 := by
    rw [Std.LawfulEqCmp.compare_eq_iff_eq, ← UInt8.toNat_inj, UInt8.toNat_ofNat',
      UInt8.toNat_ofNat']
  -- Six bits after six bits: quotients by 64 alone, which a later step takes one by one.
  have nested (n : Nat) : n / 4096 = n / 64 / 64 ∧ n / 262144 = n / 64 / 64 / 64 := by omega
  rcases encodeChar_forms c with ⟨hc, eq⟩ | ⟨hc, eq⟩ | ⟨hc, eq⟩ | ⟨hc, eq⟩
  all_goals
    rcases encodeChar_forms d with ⟨hd, eq'⟩ | ⟨hd, eq'⟩ | ⟨hd, eq'⟩ | ⟨hd, eq'⟩
    all_goals
      simp only [eq, eq', List.cons_append, List.compare_cons_cons, Ordering.then_eq_lt, below,
        same, nested]
      omega

theorem compare_char_eq_lt {c d : Char} (lower : c.toNat < d.toNat) : compare c d = .lt :=
  compareOfLessAndEq_eq_lt.mpr lower

theorem compare_append_left (front r s : List UInt8) :
    compare (front ++ r) (front ++ s) = compare r s := by
  induction front with
  | nil => rfl
  | cons b front ih =>
      rw [List.cons_append, List.cons_append, List.compare_cons_cons, Std.compare_self, ih]
      rfl

/-- Texts compare as their bytes do. -/
theorem compare_encode (cs ds : List Char) : compare (encode cs) (encode ds) = compare cs ds := by
  have nothing (d : Char) (ds : List Char) : compare (encode []) (encode (d :: ds)) = .lt := by
    rw [encode_cons]
    cases bytes : String.utf8EncodeChar d with
    | nil => exact absurd bytes (encodeChar_ne_nil d)
    | cons b more => rfl
  induction cs generalizing ds with
  | nil =>
      cases ds with
      | nil => rfl
      | cons d ds => exact nothing d ds
  | cons c cs ih =>
      cases ds with
      | nil => exact Std.OrientedCmp.gt_of_lt (nothing c cs)
      | cons d ds =>
          rw [encode_cons, encode_cons, List.compare_cons_cons]
          rcases Nat.lt_trichotomy c.toNat d.toNat with lower | same | higher
          · rw [compare_encodeChar_append lower, compare_char_eq_lt lower]
            rfl
          · obtain rfl := Char.toNat_inj.mp same
            rw [compare_append_left, ih, Std.compare_self]
            rfl
          · rw [Std.OrientedCmp.gt_of_lt (compare_encodeChar_append higher _ _),
              Std.OrientedCmp.gt_of_lt (compare_char_eq_lt higher)]
            rfl

end Gateway.Text
