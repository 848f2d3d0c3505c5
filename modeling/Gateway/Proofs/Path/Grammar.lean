import Gateway.Path.Order
import Gateway.Path.Parse
import Mathlib.Data.List.Basic

/-!
The declarations of path specs. A declaration has one of five forms, and its form decides the spec
that it stands for.
-/
namespace Gateway.Path

theorem not_mem_of_mem_splitOn {separator : Char} {text piece : List Char}
    (among : piece ∈ text.splitOn separator) : separator ∉ piece := by
  induction text generalizing piece with
  | nil =>
      rw [List.splitOn_nil, List.mem_singleton] at among
      rw [among]
      exact List.not_mem_nil
  | cons c rest ih =>
      rw [List.splitOn_cons_eq_if_modifyHead] at among
      obtain ⟨first, others, split⟩ :=
        List.exists_cons_of_ne_nil (List.splitOn_ne_nil separator rest)
      rw [split] at among ih
      by_cases here : c = separator
      · rw [if_pos (beq_iff_eq.mpr here)] at among
        rcases List.mem_cons.mp among with rfl | later
        · exact List.not_mem_nil
        · exact ih later
      · rw [if_neg (mt beq_iff_eq.mp here), List.modifyHead_cons] at among
        rcases List.mem_cons.mp among with rfl | later
        · intro inside
          rcases List.mem_cons.mp inside with same | inside
          · exact here same.symm
          · exact ih List.mem_cons_self inside
        · exact ih (List.mem_cons_of_mem _ later)

theorem exists_mem_splitOn {separator c : Char} {text : List Char} (inside : c ∈ text)
    (other : c ≠ separator) : ∃ piece ∈ text.splitOn separator, c ∈ piece := by
  induction text with
  | nil => exact absurd inside List.not_mem_nil
  | cons d rest ih =>
      rw [List.splitOn_cons_eq_if_modifyHead]
      obtain ⟨first, others, split⟩ :=
        List.exists_cons_of_ne_nil (List.splitOn_ne_nil separator rest)
      rw [split] at ih ⊢
      by_cases here : d = separator
      · rw [if_pos (beq_iff_eq.mpr here)]
        rcases List.mem_cons.mp inside with rfl | inside
        · exact absurd here other
        · obtain ⟨piece, among, found⟩ := ih inside
          exact ⟨piece, List.mem_cons_of_mem _ among, found⟩
      · rw [if_neg (mt beq_iff_eq.mp here), List.modifyHead_cons]
        rcases List.mem_cons.mp inside with rfl | inside
        · exact ⟨c :: first, List.mem_cons_self, List.mem_cons_self⟩
        · obtain ⟨piece, among, found⟩ := ih inside
          rcases List.mem_cons.mp among with rfl | among
          · exact ⟨d :: piece, List.mem_cons_self, List.mem_cons_of_mem _ found⟩
          · exact ⟨piece, List.mem_cons_of_mem _ among, found⟩

theorem mem_of_mem_splitOn {separator c : Char} {text piece : List Char}
    (among : piece ∈ text.splitOn separator) (inside : c ∈ piece) : c ∈ text := by
  induction text generalizing piece with
  | nil =>
      rw [List.splitOn_nil, List.mem_singleton] at among
      rw [among] at inside
      exact absurd inside List.not_mem_nil
  | cons d rest ih =>
      rw [List.splitOn_cons_eq_if_modifyHead] at among
      obtain ⟨first, others, split⟩ :=
        List.exists_cons_of_ne_nil (List.splitOn_ne_nil separator rest)
      rw [split] at among ih
      by_cases here : d = separator
      · rw [if_pos (beq_iff_eq.mpr here)] at among
        rcases List.mem_cons.mp among with rfl | later
        · exact absurd inside List.not_mem_nil
        · exact List.mem_cons_of_mem _ (ih later inside)
      · rw [if_neg (mt beq_iff_eq.mp here), List.modifyHead_cons] at among
        rcases List.mem_cons.mp among with rfl | later
        · rcases List.mem_cons.mp inside with rfl | inside
          · exact List.mem_cons_self
          · exact List.mem_cons_of_mem _ (ih List.mem_cons_self inside)
        · exact List.mem_cons_of_mem _ (ih (List.mem_cons_of_mem _ later) inside)

/-- A character that stands for itself in a declaration. -/
def IsPlain (c : Char) : Prop := c ≠ '*' ∧ isBrace c = false

inductive Segment.Spelled : List Char → Segment → Prop
  | literal {text : List Char} : (∀ c ∈ text, IsPlain c) → Spelled text (.literal text)
  | variableName {name : List Char} : name ≠ [] → (∀ c ∈ name, isBrace c = false) →
      Spelled ('{' :: (name ++ ['}'])) (.variableName name)

inductive Spelling : List (List Char) → List Segment → Prop
  | nil : Spelling [] []
  | cons {part : List Char} {parts : List (List Char)} {segment : Segment}
      {segments : List Segment} : Segment.Spelled part segment → Spelling parts segments →
      Spelling (part :: parts) (segment :: segments)

def openSegments (segments : List Segment) : List Segment := segments.filter (!·.isLiteral)

/-- The forms of declarations, and the specs they stand for. -/
inductive Declares : List Char → Spec → Prop
  | default : Declares ['/'] .default
  | suffix {extension : List Char} : extension ≠ [] →
      (∀ c ∈ extension, c ≠ '/' ∧ IsPlain c) →
      Declares ('*' :: '.' :: extension) (.suffix extension)
  | exact {rest : List Char} : rest ≠ [] → (∀ c ∈ rest, IsPlain c) →
      Declares ('/' :: rest) (.exact ('/' :: rest))
  | below {base : List Char} : base = [] ∨ (∃ rest, base = '/' :: rest) → (∀ c ∈ base, IsPlain c) →
      Declares (base ++ ['/', '*']) (.below base)
  | template {rest : List Char} {segments : List Segment} :
      Spelling (rest.splitOn '/') segments → openSegments segments ≠ [] →
      (openSegments segments).Nodup → Declares ('/' :: rest) (.template ('/' :: rest) segments)

theorem spelled_of_parseSegment {part : List Char} {segment : Segment}
    (parsed : parseSegment part = some segment) : segment.Spelled part := by
  rw [parseSegment.eq_def] at parsed
  split at parsed
  · split at parsed
    · rename_i closed
      split at parsed
      · exact absurd parsed (by simp)
      · rename_i named
        obtain rfl := Option.some.inj parsed
        rw [← List.isSuffixOf?_eq_some_iff_append_eq.mp closed]
        refine .variableName ?_ ?_
        · rintro rfl
          exact named rfl
        · intro c among
          rw [Bool.or_eq_true, not_or, List.any_eq_true] at named
          exact Bool.eq_false_iff.mpr fun brace => named.2 ⟨c, among, brace⟩
    · exact absurd parsed (by simp)
  · split at parsed
    · exact absurd parsed (by simp)
    · rename_i plain
      obtain rfl := Option.some.inj parsed
      refine .literal ?_
      intro c among
      simp only [List.any_eq_true, not_exists, not_and, Bool.or_eq_true, not_or] at plain
      obtain ⟨brace, star⟩ := plain c among
      exact ⟨by simpa using star, by simpa using brace⟩

theorem spelling_of_parseSegments {seen segments : List Segment} {parts : List (List Char)}
    (parsed : parseSegments seen parts = some segments) : ∃ more, segments = seen ++ more
      ∧ Spelling parts more ∧ ((openSegments seen).Nodup → (openSegments segments).Nodup) := by
  induction parts generalizing seen with
  | nil =>
      obtain rfl := Option.some.inj parsed
      exact ⟨[], (List.append_nil _).symm, .nil, id⟩
  | cons part parts ih =>
      rw [parseSegments] at parsed
      split at parsed
      · rename_i name read
        split at parsed
        · exact absurd parsed (by simp)
        · rename_i fresh
          obtain ⟨more, rfl, spelling, once⟩ := ih parsed
          refine ⟨.variableName name :: more, by simp,
            .cons (spelled_of_parseSegment read) spelling, fun distinct => once ?_⟩
          rw [openSegments, List.filter_append]
          refine List.nodup_append.mpr ⟨distinct, by simp [Segment.isLiteral], ?_⟩
          rintro a earlier b new rfl
          have last : a = .variableName name := by simpa [Segment.isLiteral] using new
          rw [last] at earlier
          exact fresh (List.mem_filter.mp earlier).1
      · rename_i text read
        obtain ⟨more, rfl, spelling, once⟩ := ih parsed
        refine ⟨.literal text :: more, by simp, .cons (spelled_of_parseSegment read) spelling,
          fun distinct => once ?_⟩
        have still : openSegments (seen ++ [.literal text]) = openSegments seen := by
          rw [openSegments, List.filter_append]
          exact List.append_nil _
        rwa [still]
      · exact absurd parsed (by simp)

theorem openSegments_ne_nil {parts : List (List Char)} {segments : List Segment}
    (spelling : Spelling parts segments) {part : List Char} (among : part ∈ parts) {c : Char}
    (inside : c ∈ part) (brace : isBrace c = true) : openSegments segments ≠ [] := by
  induction spelling with
  | nil => exact absurd among List.not_mem_nil
  | @cons first parts segment segments spelled later ih =>
      cases spelled with
      | variableName => simp [openSegments, Segment.isLiteral]
      | literal plain =>
          rcases List.mem_cons.mp among with rfl | among
          · exact absurd brace (by simp [(plain c inside).2])
          · simpa [openSegments, Segment.isLiteral] using ih among

theorem declares_of_parseTemplate {raw : List Char} {s : Spec} (braced : raw.any isBrace = true)
    (parsed : parseTemplate raw = .ok s) : Declares raw s := by
  rw [parseTemplate.eq_def] at parsed
  split at parsed
  · rename_i rest
    split at parsed
    · rename_i segments read
      obtain rfl := Except.ok.inj parsed
      obtain ⟨more, rfl, spelling, once⟩ := spelling_of_parseSegments read
      obtain ⟨c, inside, brace⟩ := List.any_eq_true.mp braced
      have other : c ≠ '/' := by
        rintro rfl
        exact absurd brace (by decide)
      have behind : c ∈ rest := (List.mem_cons.mp inside).resolve_left other
      obtain ⟨piece, among, found⟩ := exists_mem_splitOn behind other
      exact .template spelling (openSegments_ne_nil spelling among found brace) (once .nil)
    · exact absurd parsed (by simp)
  · exact absurd parsed (by simp)

theorem declares_of_parsePath {rest : List Char} {s : Spec} (more : rest ≠ [])
    (plain : ∀ c ∈ '/' :: rest, isBrace c = false) (parsed : parsePath ('/' :: rest) = .ok s) :
    Declares ('/' :: rest) s := by
  rw [parsePath] at parsed
  split at parsed
  · rename_i base closed
    split at parsed
    · exact absurd parsed (by simp)
    · rename_i no_star
      obtain rfl := Except.ok.inj parsed
      have whole := List.isSuffixOf?_eq_some_iff_append_eq.mp closed
      rw [← whole] at plain ⊢
      refine .below ?_ ?_
      · cases base with
        | nil => exact .inl rfl
        | cons c base =>
            obtain ⟨rfl, -⟩ := List.cons.inj whole
            exact .inr ⟨base, rfl⟩
      · intro c among
        exact ⟨fun star => no_star (star ▸ among), plain c (List.mem_append_left _ among)⟩
  · split at parsed
    · exact absurd parsed (by simp)
    · rename_i no_star
      obtain rfl := Except.ok.inj parsed
      refine .exact more ?_
      intro c among
      have among : c ∈ '/' :: rest := List.mem_cons_of_mem _ among
      exact ⟨fun star => no_star (star ▸ among), plain c among⟩

/-- What is read is declared. -/
theorem declares_of_parse {declaration : List Char} {s : Spec}
    (parsed : Spec.parse declaration = .ok s) : Declares (dropMark declaration) s := by
  rw [Spec.parse] at parsed
  generalize dropMark declaration = raw at parsed ⊢
  split at parsed
  · exact absurd parsed (by simp)
  · split at parsed
    · rename_i braced
      exact declares_of_parseTemplate braced parsed
    · rename_i no_brace
      have plain : ∀ c ∈ raw, isBrace c = false := by
        intro c among
        exact Bool.eq_false_iff.mpr fun brace => no_brace (List.any_eq_true.mpr ⟨c, among, brace⟩)
      split at parsed
      · obtain rfl := Except.ok.inj parsed
        exact .default
      · rename_i extension
        split at parsed
        · exact absurd parsed (by simp)
        · rename_i fine
          obtain rfl := Except.ok.inj parsed
          simp only [Bool.or_eq_true, not_or, decide_eq_true_eq, List.isEmpty_iff] at fine
          obtain ⟨⟨some_left, no_slash⟩, no_star⟩ := fine
          refine .suffix some_left ?_
          intro c among
          refine ⟨fun slash => no_slash (slash ▸ among), fun star => no_star (star ▸ among), ?_⟩
          exact plain c (List.mem_cons_of_mem _ (List.mem_cons_of_mem _ among))
      · rename_i rest more _
        exact declares_of_parsePath more plain parsed
      · exact absurd parsed (by simp)

end Gateway.Path
