import Gateway.Session.Uuid
import Mathlib.Algebra.Ring.Nat
import Mathlib.Data.List.Basic
import Mathlib.Data.List.Induction

/-!
The spellings of an id. A format is lawful if it reads an id from its 32 digits, from the hyphenated
form, and from that form in braces or as a name, letters in either case, and from nothing else; and
writes the hyphenated form in small letters. The usual format is. An id is then read from any of
these with one mark in front or none, and from no other text.
-/
namespace Gateway.Session.Id

variable {id : Id} {cs : List Char} {ds : List Nat} {lengths : List Nat}

/-- The spellings of an id, with letters in either case. -/
inductive Spells (id : Id) : List Char → Prop
  | digits {cs : List Char} : cs.map lower = hexDigits 32 id.toNat → Spells id cs
  | hyphenated {cs : List Char} : cs.map lower = id.bare → Spells id cs
  | braced {cs : List Char} : cs.map lower = id.bare → Spells id ('{' :: cs ++ ['}'])
  | named {front cs : List Char} : front.map lower = urnMark → cs.map lower = id.bare →
      Spells id (front ++ cs)

/-- What is relied on in a format of ids: it reads the spellings and nothing else, and writes the
hyphenated one in small letters. -/
structure Format.Lawful (f : Format) : Prop where
  writes : ∀ id, f.write id = id.bare
  reads : ∀ cs id, f.read? cs = some id ↔ Spells id cs

/-! ### Digits -/

theorem length_of_map_lower {ws : List Char} (same : cs.map lower = ws) :
    cs.length = ws.length := by
  rw [← same, List.length_map]

theorem toNat_lower (c : Char) :
    (lower c).toNat = if 65 ≤ c.toNat ∧ c.toNat ≤ 90 then c.toNat + 32 else c.toNat := by
  by_cases capital : 65 ≤ c.toNat ∧ c.toNat ≤ 90
  · have lowered : (lower c).val = c.val + ('a'.val - 'A'.val) :=
      congrArg Char.val (dif_pos capital)
    have shifted : (c.val + ('a'.val - 'A'.val)).toNat = (c.val.toNat + 32) % 2 ^ 32 :=
      UInt32.toNat_add ..
    have number : c.toNat = c.val.toNat := rfl
    rw [if_pos capital, Char.toNat, lowered, shifted]
    omega
  · have kept : lower c = c := dif_neg capital
    rw [if_neg capital, kept]

theorem toNat_digit {d : Nat} (small : d < 16) :
    (Text.Hex.digit false d).toNat = if d < 10 then 48 + d else 87 + d := by
  revert d
  decide

theorem value?_eq_some_iff_toNat {c : Char} {d : Nat} : Text.Hex.value? c = some d
    ↔ (48 ≤ c.toNat ∧ c.toNat ≤ 57) ∧ c.toNat = d + 48
      ∨ (97 ≤ c.toNat ∧ c.toNat ≤ 102) ∧ c.toNat = d + 87
      ∨ (65 ≤ c.toNat ∧ c.toNat ≤ 70) ∧ c.toNat = d + 55 := by
  have between (x y : Char) : x ≤ c ∧ c ≤ y ↔ x.toNat ≤ c.toNat ∧ c.toNat ≤ y.toNat := Iff.rfl
  have figure : '0' ≤ c ∧ c ≤ '9' ↔ 48 ≤ c.toNat ∧ c.toNat ≤ 57 := between '0' '9'
  have small : 'a' ≤ c ∧ c ≤ 'f' ↔ 97 ≤ c.toNat ∧ c.toNat ≤ 102 := between 'a' 'f'
  have capital : 'A' ≤ c ∧ c ≤ 'F' ↔ 65 ≤ c.toNat ∧ c.toNat ≤ 70 := between 'A' 'F'
  simp only [Text.Hex.value?, figure, small, capital]
  split
  · rw [Option.some_inj]
    omega
  · split
    · rw [Option.some_inj]
      omega
    · split
      · rw [Option.some_inj]
        omega
      · refine iff_of_false (by simp) ?_
        omega

theorem digit?_eq_some_iff {c : Char} {d : Nat} :
    Text.digit? 16 c = some d ↔ d < 16 ∧ lower c = Text.Hex.digit false d := by
  have whole : Text.digit? 16 c = some d ↔ d < 16 ∧ Text.Hex.value? c = some d := by
    rw [Text.digit?, Option.filter_eq_some_iff, decide_eq_true_iff, and_comm]
  rw [whole]
  refine and_congr_right fun small => ?_
  rw [value?_eq_some_iff_toNat, ← Char.toNat_inj, toNat_lower, toNat_digit small]
  split <;> split <;> omega

theorem mapM_digit?_eq_some_iff : cs.mapM (Text.digit? 16) = some ds
    ↔ (∀ d ∈ ds, d < 16) ∧ cs.map lower = ds.map (Text.Hex.digit false) := by
  induction cs generalizing ds with
  | nil =>
      cases ds with
      | nil => exact iff_of_true rfl ⟨nofun, rfl⟩
      | cons d ds => exact iff_of_false nofun nofun
  | cons c cs ih =>
      rw [List.mapM_cons]
      constructor
      · intro read
        obtain ⟨d, first, read⟩ := Option.bind_eq_some_iff.mp read
        obtain ⟨rest, later, same⟩ := Option.bind_eq_some_iff.mp read
        obtain rfl := Option.some.inj same
        obtain ⟨small, spelled⟩ := digit?_eq_some_iff.mp first
        obtain ⟨rest_small, rest_spelled⟩ := ih.mp later
        refine ⟨List.forall_mem_cons.mpr ⟨small, rest_small⟩, ?_⟩
        rw [List.map_cons, List.map_cons, spelled, rest_spelled]
      · rintro ⟨small, spelled⟩
        cases ds with
        | nil => exact absurd spelled (List.cons_ne_nil _ _)
        | cons d ds =>
            obtain ⟨first, later⟩ := List.cons.inj spelled
            obtain ⟨d_small, ds_small⟩ := List.forall_mem_cons.mp small
            rw [digit?_eq_some_iff.mpr ⟨d_small, first⟩, ih.mpr ⟨ds_small, later⟩]
            rfl

/-! ### The digits of a number -/

theorem length_hexDigits (count n : Nat) : (hexDigits count n).length = count := by
  induction count generalizing n with
  | zero => rfl
  | succ count ih => rw [hexDigits, List.length_append, ih, List.length_singleton]

theorem mem_hexDigits {count n : Nat} {c : Char} (among : c ∈ hexDigits count n) :
    ∃ d < 16, c = Text.Hex.digit false d := by
  induction count generalizing n with
  | zero => exact absurd among List.not_mem_nil
  | succ count ih =>
      rcases List.mem_append.mp among with earlier | last
      · exact ih earlier
      · refine ⟨n % 16, Nat.mod_lt n (by decide), ?_⟩
        rw [List.mem_singleton.mp last, Text.Hex.digit, Text.Hex.digit, Nat.mod_mod]

theorem ofDigits_append (ds : List Nat) (d : Nat) :
    Text.ofDigits 16 (ds ++ [d]) = Text.ofDigits 16 ds * 16 + d :=
  List.foldl_append

theorem small_concat {d : Nat} :
    (∀ e ∈ ds ++ [d], e < 16) ↔ (∀ e ∈ ds, e < 16) ∧ d < 16 := by
  rw [List.forall_mem_append, List.forall_mem_singleton]

theorem ofDigits_lt (small : ∀ d ∈ ds, d < 16) : Text.ofDigits 16 ds < 16 ^ ds.length := by
  induction ds using List.reverseRecOn with
  | nil => exact Nat.one_pos
  | append_singleton ds d ih =>
      obtain ⟨earlier, last⟩ := small_concat.mp small
      have before := ih earlier
      rw [ofDigits_append, List.length_append, List.length_singleton, Nat.pow_succ]
      omega

theorem hexDigits_ofDigits (small : ∀ d ∈ ds, d < 16) :
    hexDigits ds.length (Text.ofDigits 16 ds) = ds.map (Text.Hex.digit false) := by
  induction ds using List.reverseRecOn with
  | nil => rfl
  | append_singleton ds d ih =>
      obtain ⟨earlier, last⟩ := small_concat.mp small
      have before := ih earlier
      have high : (Text.ofDigits 16 ds * 16 + d) / 16 = Text.ofDigits 16 ds := by omega
      have low : Text.Hex.digit false (Text.ofDigits 16 ds * 16 + d)
          = Text.Hex.digit false d := by
        rw [Text.Hex.digit, Text.Hex.digit, Nat.mul_add_mod_self_right]
      rw [ofDigits_append, List.length_append, List.length_singleton, hexDigits, high, low, before,
        List.map_append, List.map_singleton]

theorem exists_digits {count n : Nat} (fits : n < 16 ^ count) :
    ∃ ds : List Nat, ds.length = count ∧ (∀ d ∈ ds, d < 16) ∧ Text.ofDigits 16 ds = n := by
  induction count generalizing n with
  | zero =>
      obtain rfl : n = 0 := Nat.lt_one_iff.mp fits
      exact ⟨[], rfl, nofun, rfl⟩
  | succ count ih =>
      have high : n / 16 < 16 ^ count := by
        rw [Nat.pow_succ] at fits
        omega
      obtain ⟨ds, length, small, number⟩ := ih high
      refine ⟨ds ++ [n % 16], ?_, small_concat.mpr ⟨small, Nat.mod_lt n (by decide)⟩, ?_⟩
      · rw [List.length_append, length, List.length_singleton]
      · rw [ofDigits_append, number, Nat.div_add_mod']

theorem ofDigits?_eq_some_iff : ofDigits? cs = some id ↔ cs.map lower = hexDigits 32 id.toNat := by
  have width : (16 : Nat) ^ 32 = 2 ^ 128 := rfl
  constructor
  · intro read
    obtain ⟨length, read⟩ := Option.ite_none_right_eq_some.mp read
    obtain ⟨ds, digits, rfl⟩ := Option.map_eq_some_iff.mp read
    obtain ⟨small, same⟩ := mapM_digit?_eq_some_iff.mp digits
    have count : ds.length = 32 := by
      rw [← length, length_of_map_lower same, List.length_map]
    have fits := ofDigits_lt small
    rw [count, width] at fits
    rw [same, ← hexDigits_ofDigits small, count, BitVec.toNat_ofNat, Nat.mod_eq_of_lt fits]
  · intro same
    have fits : id.toNat < 16 ^ 32 := id.isLt
    obtain ⟨ds, count, small, number⟩ := exists_digits fits
    have length : cs.length = 32 := (length_of_map_lower same).trans (length_hexDigits 32 _)
    rw [← number, ← count, hexDigits_ofDigits small] at same
    rw [ofDigits?, if_pos length, mapM_digit?_eq_some_iff.mpr ⟨small, same⟩, Option.map_some,
      number, BitVec.ofNat_toNat, BitVec.setWidth_eq]

/-! ### Hyphens -/

theorem lower_eq_hyphen_iff {c : Char} : lower c = '-' ↔ c = '-' := by
  have hyphen : '-'.toNat = 45 := rfl
  rw [← Char.toNat_inj, ← Char.toNat_inj, toNat_lower, hyphen]
  split <;> omega

theorem hyphenate_cons_cons (n m : Nat) (lengths : List Nat) (cs : List Char) :
    hyphenate (n :: m :: lengths) cs
      = cs.take n ++ '-' :: hyphenate (m :: lengths) (cs.drop n) := rfl

theorem unhyphenate_cons_cons (n m : Nat) (lengths : List Nat) (cs : List Char) :
    unhyphenate (n :: m :: lengths) cs = match cs.drop n with
      | '-' :: rest => (unhyphenate (m :: lengths) rest).map (cs.take n ++ ·)
      | _ => none := rfl

theorem unhyphenate_eq_some_iff {ds : List Char} : unhyphenate lengths cs = some ds
    ↔ ds.length = lengths.sum ∧ hyphenate lengths ds = cs := by
  induction lengths generalizing cs ds with
  | nil =>
      rw [unhyphenate, Option.ite_none_right_eq_some, List.isEmpty_iff, Option.some_inj,
        List.sum_nil, List.length_eq_zero_iff, hyphenate, and_comm]
      exact and_congr eq_comm eq_comm
  | cons n lengths ih =>
      cases lengths with
      | nil =>
          rw [unhyphenate, Option.ite_none_right_eq_some, Option.some_inj, hyphenate,
            List.sum_singleton]
          constructor
          · rintro ⟨length, rfl⟩
            exact ⟨length, List.take_of_length_le (Nat.le_of_eq length)⟩
          · rintro ⟨length, rfl⟩
            rw [List.take_of_length_le (Nat.le_of_eq length)]
            exact ⟨length, rfl⟩
      | cons m lengths =>
          rw [unhyphenate_cons_cons, List.sum_cons, hyphenate_cons_cons]
          constructor
          · intro read
            split at read
            · rename_i rest at_hyphen
              obtain ⟨more, later, rfl⟩ := Option.map_eq_some_iff.mp read
              obtain ⟨length, same⟩ := ih.mp later
              have front : (cs.take n).length = n := by
                have some_left := congrArg List.length at_hyphen
                rw [List.length_drop, List.length_cons] at some_left
                exact List.length_take_of_le (by omega)
              rw [List.length_append, front, length, List.take_left' front,
                List.drop_left' front, same, ← at_hyphen]
              exact ⟨rfl, List.take_append_drop n cs⟩
            · exact absurd read (by simp)
          · rintro ⟨length, rfl⟩
            have front : (ds.take n).length = n := List.length_take_of_le (by omega)
            have behind : (ds.drop n).length = (m :: lengths).sum := by
              rw [List.length_drop]
              omega
            have later := ih.mpr ⟨behind, rfl⟩
            simp only [List.drop_left' front, List.take_left' front, later, Option.map_some,
              List.take_append_drop]

theorem unhyphenate_map_lower (lengths : List Nat) (cs : List Char) :
    unhyphenate lengths (cs.map lower) = (unhyphenate lengths cs).map (List.map lower) := by
  induction lengths generalizing cs with
  | nil =>
      cases cs with
      | nil | cons => rfl
  | cons n lengths ih =>
      cases lengths with
      | nil =>
          rw [unhyphenate, unhyphenate, List.length_map]
          split
          · rfl
          · rfl
      | cons m lengths =>
          rw [unhyphenate_cons_cons, unhyphenate_cons_cons, ← List.map_drop]
          cases cs.drop n with
          | nil => rfl
          | cons c rest =>
              by_cases hyphen : c = '-'
              · subst hyphen
                rw [List.map_cons, lower_eq_hyphen_iff.mpr rfl]
                simp only [ih, Option.map_map]
                congr 1
                funext more
                simp
              · have kept := mt lower_eq_hyphen_iff.mp hyphen
                simp [hyphen, kept]

/-- An id is read from its hyphenated form, and from nothing else. -/
theorem ofHyphenated?_eq_some_iff : ofHyphenated? cs = some id ↔ cs.map lower = id.bare := by
  have written : unhyphenate groupLengths (cs.map lower) = some (hexDigits 32 id.toNat) ↔ _ :=
    unhyphenate_eq_some_iff
  rw [unhyphenate_map_lower, Option.map_eq_some_iff] at written
  rw [ofHyphenated?, Option.bind_eq_some_iff, bare, eq_comm (a := cs.map lower)]
  simp only [ofDigits?_eq_some_iff, written]
  exact and_iff_right (length_hexDigits 32 id.toNat)

/-! ### The usual format -/

theorem length_bare (id : Id) : id.bare.length = 36 := by
  simp [bare, groupLengths, hyphenate, length_hexDigits]

theorem ofBare?_of_spells (spells : Spells id cs) : ofBare? cs = some id := by
  cases spells with
  | digits same =>
      have length : cs.length = 32 := (length_of_map_lower same).trans (length_hexDigits 32 _)
      rw [ofBare?.eq_def, if_pos length]
      exact ofDigits?_eq_some_iff.mpr same
  | hyphenated same =>
      have length : cs.length = 36 := (length_of_map_lower same).trans (length_bare id)
      rw [ofBare?.eq_def, if_neg (by omega), if_pos length]
      exact ofHyphenated?_eq_some_iff.mpr same
  | @braced cs same =>
      have inner : cs.length = 36 := (length_of_map_lower same).trans (length_bare id)
      have length : ('{' :: cs ++ ['}']).length = 38 := by simp [inner]
      have closed : ['}'].isSuffixOf? (cs ++ ['}']) = some cs :=
        List.isSuffixOf?_eq_some_iff_append_eq.mpr rfl
      rw [ofBare?.eq_def, if_neg (by omega), if_neg (by omega), if_pos length, List.cons_append]
      simp only [closed, Option.bind_some]
      exact ofHyphenated?_eq_some_iff.mpr same
  | @named front cs mark same =>
      have inner : cs.length = 36 := (length_of_map_lower same).trans (length_bare id)
      have front_length : front.length = 9 := length_of_map_lower mark
      have length : (front ++ cs).length = 45 := by rw [List.length_append, front_length, inner]
      rw [ofBare?.eq_def, if_neg (by omega), if_neg (by omega), if_neg (by omega), if_pos length,
        List.take_left' front_length, List.drop_left' front_length, if_pos mark]
      exact ofHyphenated?_eq_some_iff.mpr same

theorem spells_of_ofBare? (read : ofBare? cs = some id) : Spells id cs := by
  rw [ofBare?.eq_def] at read
  split at read
  · exact .digits (ofDigits?_eq_some_iff.mp read)
  · split at read
    · exact .hyphenated (ofHyphenated?_eq_some_iff.mp read)
    · split at read
      · split at read
        · rename_i rest _
          obtain ⟨inner, closed, read⟩ := Option.bind_eq_some_iff.mp read
          rw [← List.isSuffixOf?_eq_some_iff_append_eq.mp closed]
          exact .braced (ofHyphenated?_eq_some_iff.mp read)
        · exact absurd read (by simp)
      · obtain ⟨length, read⟩ := Option.ite_none_right_eq_some.mp read
        obtain ⟨mark, read⟩ := Option.ite_none_right_eq_some.mp read
        rw [← List.take_append_drop 9 cs]
        exact .named mark (ofHyphenated?_eq_some_iff.mp read)

theorem uuid_lawful : Format.uuid.Lawful where
  writes _ := rfl
  reads _ _ := ⟨spells_of_ofBare?, ofBare?_of_spells⟩

/-! ### The mark -/

theorem mem_hyphenate {c : Char} (among : c ∈ hyphenate lengths cs) : c ∈ cs ∨ c = '-' := by
  induction lengths generalizing cs with
  | nil => exact absurd among List.not_mem_nil
  | cons n lengths ih =>
      cases lengths with
      | nil => exact .inl (List.mem_of_mem_take among)
      | cons m lengths =>
          rw [hyphenate_cons_cons] at among
          rcases List.mem_append.mp among with front | behind
          · exact .inl (List.mem_of_mem_take front)
          · rcases List.mem_cons.mp behind with hyphen | later
            · exact .inr hyphen
            · exact (ih later).imp_left List.mem_of_mem_drop

theorem not_mem_hexDigits (count n : Nat) : 'w' ∉ hexDigits count n := by
  intro among
  obtain ⟨d, small, same⟩ := mem_hexDigits among
  revert d
  decide

theorem not_mem_bare (id : Id) : 'w' ∉ id.bare := by
  intro among
  rcases mem_hyphenate among with digit | hyphen
  · exact not_mem_hexDigits 32 id.toNat digit
  · exact absurd hyphen (by decide)

theorem not_mem_of_map_lower {ws : List Char} (same : cs.map lower = ws) (missing : 'w' ∉ ws) :
    'w' ∉ cs := by
  intro among
  rw [← same] at missing
  exact missing (List.mem_map_of_mem among)

/-- No spelling begins with the mark, whose first letter is in none of them. -/
theorem Spells.unmarked (spells : Spells id cs) : ¬ mark <+: cs := by
  have plain : 'w' ∉ cs := by
    cases spells with
    | digits same => exact not_mem_of_map_lower same (not_mem_hexDigits 32 id.toNat)
    | hyphenated same => exact not_mem_of_map_lower same (not_mem_bare id)
    | braced same => simpa using not_mem_of_map_lower same (not_mem_bare id)
    | named front same =>
        rw [List.mem_append, not_or]
        exact ⟨not_mem_of_map_lower front (by decide),
          not_mem_of_map_lower same (not_mem_bare id)⟩
  rintro ⟨rest, rfl⟩
  exact plain List.mem_cons_self

namespace Format

theorem parse?_marked (f : Format) (cs : List Char) : f.parse? (mark ++ cs) = f.read? cs := by
  have marked : mark.isPrefixOf? (mark ++ cs) = some cs :=
    List.isPrefixOf?_eq_some_iff_append_eq.mpr rfl
  rw [parse?, marked, Option.getD_some]

theorem parse?_unmarked (f : Format) (plain : ¬ mark <+: cs) : f.parse? cs = f.read? cs := by
  have unmarked : mark.isPrefixOf? cs = none := by
    rw [Option.eq_none_iff_forall_ne_some]
    intro rest marked
    exact plain ⟨rest, List.isPrefixOf?_eq_some_iff_append_eq.mp marked⟩
  rw [parse?, unmarked, Option.getD_none]

end Format

theorem map_lower_bare (id : Id) : id.bare.map lower = id.bare := by
  have small : ∀ d < 16, lower (Text.Hex.digit false d) = Text.Hex.digit false d := by decide
  refine (List.map_congr_left fun c among => ?_).trans (List.map_id id.bare)
  rcases mem_hyphenate among with digit | rfl
  · obtain ⟨d, below, rfl⟩ := mem_hexDigits digit
    exact small d below
  · rfl

/-- An id is read from its spellings, bare or with one mark in front, and from no other text; so its
display text is read as the id, and a text with two marks is refused. -/
theorem spellings_read_back {f : Format} (lawful : f.Lawful) (id : Id) :
    f.parse? (f.display id) = some id
      ∧ (∀ text, f.parse? text = some id
        ↔ Spells id text ∨ ∃ spelling, Spells id spelling ∧ text = mark ++ spelling)
      ∧ ∀ text, f.parse? (mark ++ (mark ++ text)) = none := by
  refine ⟨?_, ?_, ?_⟩
  · rw [Format.display, f.parse?_marked, lawful.writes, lawful.reads]
    exact .hyphenated (map_lower_bare id)
  · intro text
    by_cases marked : mark <+: text
    · obtain ⟨rest, rfl⟩ := marked
      rw [f.parse?_marked, lawful.reads]
      constructor
      · intro spells
        exact .inr ⟨rest, spells, rfl⟩
      · rintro (spells | ⟨spelling, spells, same⟩)
        · exact absurd ⟨rest, rfl⟩ spells.unmarked
        · rwa [List.append_cancel_left same]
    · rw [f.parse?_unmarked marked, lawful.reads]
      constructor
      · exact .inl
      · rintro (spells | ⟨spelling, spells, rfl⟩)
        · exact spells
        · exact absurd ⟨spelling, rfl⟩ marked
  · intro text
    rw [f.parse?_marked, Option.eq_none_iff_forall_ne_some]
    intro other read
    exact ((lawful.reads _ other).mp read).unmarked ⟨text, rfl⟩

/-- One id in the usual format. The mark is in small letters only; what stands behind it need not
be. -/
theorem uuid_spellings_read_back :
    let id : Id := 0x67E5504410B1426F9247BB680E5FE0C8
    let f := Format.uuid
    f.display id = "ws-67e55044-10b1-426f-9247-bb680e5fe0c8".toList
      ∧ f.parse? (f.display id) = some id
      ∧ f.parse? "ws-{67e55044-10B1-426F-9247-BB680E5FE0C8}".toList = some id
      ∧ f.parse? "WS-67e55044-10b1-426f-9247-bb680e5fe0c8".toList = none
      ∧ f.parse? "ws-ws-67e55044-10b1-426f-9247-bb680e5fe0c8".toList = none := by
  intro id f
  obtain ⟨shown, spelled, marked_twice⟩ := spellings_read_back uuid_lawful id
  have braced : Spells id "{67e55044-10B1-426F-9247-BB680E5FE0C8}".toList :=
    @Spells.braced id "67e55044-10B1-426F-9247-BB680E5FE0C8".toList (by decide +kernel)
  refine ⟨by decide +kernel, shown, (spelled _).mpr (.inr ⟨_, braced, rfl⟩), ?_, ?_⟩
  · decide +kernel
  · exact marked_twice "67e55044-10b1-426f-9247-bb680e5fe0c8".toList

end Gateway.Session.Id
