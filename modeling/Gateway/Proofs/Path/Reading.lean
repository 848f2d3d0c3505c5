import Gateway.Proofs.Path.Grammar

/-!
Reading a path spec, exactly. A text is read just when it has the form of a declaration, as the spec
that the form stands for; any other text is refused, for a reason that its first characters and its
braces decide.
-/
namespace Gateway.Path

/-- The text of a declaration without its mark; one mark is taken off, if one is there. -/
def Unmarked (declaration raw : List Char) : Prop :=
  declaration = templateMark ++ raw ∨ raw = declaration ∧ ¬ templateMark <+: declaration

/-- A suffix spec as far as its first characters go. -/
def OpensSuffix (raw : List Char) : Prop := ['*', '.'] <+: raw ∧ ∀ c ∈ raw, isBrace c = false

instance (raw : List Char) : Decidable (OpensSuffix raw) := inferInstanceAs (Decidable (_ ∧ _))

def fault (raw : List Char) : SpecError :=
  if raw = [] then .empty
  else if ¬ ['/'] <+: raw ∧ ¬ OpensSuffix raw then .badStart raw
  else if ['/'] <+: raw ∧ raw.any isBrace = true then .badTemplate raw
  else .misplacedWildcard raw

theorem unmarked_dropMark (declaration : List Char) :
    Unmarked declaration (dropMark declaration) := by
  rw [dropMark]
  cases marked : templateMark.isPrefixOf? declaration with
  | some raw => exact .inl (List.isPrefixOf?_eq_some_iff_append_eq.mp marked).symm
  | none =>
      refine .inr ⟨rfl, ?_⟩
      rintro ⟨raw, split⟩
      rw [List.isPrefixOf?_eq_some_iff_append_eq.mpr split] at marked
      exact absurd marked (by simp)

/-! ### Declarations are read -/

theorem any_isBrace_eq_false {raw : List Char} (plain : ∀ c ∈ raw, isBrace c = false) :
    raw.any isBrace = false := by
  rw [List.any_eq_false]
  intro c among brace
  exact absurd (plain c among) (by simp [brace])

theorem parseSegment_of_spelled {part : List Char} {segment : Segment}
    (spelled : segment.Spelled part) : parseSegment part = some segment := by
  cases spelled with
  | literal plain =>
      rw [parseSegment.eq_def]
      split
      · exact absurd (plain '{' List.mem_cons_self).2 (by decide)
      · refine if_neg fun special => ?_
        obtain ⟨c, among, special⟩ := List.any_eq_true.mp special
        obtain ⟨star, brace⟩ := plain c among
        exact absurd special (by simp [star, brace])
  | @variableName name named plain =>
      have closed : ['}'].isSuffixOf? (name ++ ['}']) = some name :=
        List.isSuffixOf?_eq_some_iff_append_eq.mpr rfl
      rw [parseSegment, closed]
      refine if_neg ?_
      rw [any_isBrace_eq_false plain, Bool.or_false, List.isEmpty_iff]
      exact named

theorem parseSegments_of_spelling {seen more : List Segment} {parts : List (List Char)}
    (spelling : Spelling parts more) (once : (openSegments (seen ++ more)).Nodup) :
    parseSegments seen parts = some (seen ++ more) := by
  induction spelling generalizing seen with
  | nil => rw [parseSegments, List.append_nil]
  | @cons part parts segment more spelled rest ih =>
      have later : parseSegments (seen ++ [segment]) parts = some (seen ++ [segment] ++ more) :=
        ih (by simpa using once)
      rw [List.append_assoc, List.singleton_append] at later
      rw [parseSegments, parseSegment_of_spelled spelled]
      cases segment with
      | literal text => exact later
      | variableName name =>
          have fresh : Segment.variableName name ∉ seen := by
            intro named
            have earlier : Segment.variableName name ∈ openSegments seen :=
              List.mem_filter.mpr ⟨named, rfl⟩
            rw [openSegments, List.filter_append] at once
            exact (List.nodup_append.mp once).2.2 _ earlier _ (by simp [Segment.isLiteral]) rfl
          exact (if_neg fresh).trans later

theorem exists_brace {parts : List (List Char)} {segments : List Segment}
    (spelling : Spelling parts segments) (some_open : openSegments segments ≠ []) :
    ∃ part ∈ parts, '{' ∈ part := by
  induction spelling with
  | nil => exact absurd rfl some_open
  | cons spelled rest ih =>
      cases spelled with
      | literal =>
          obtain ⟨part, among, inside⟩ := ih some_open
          exact ⟨part, List.mem_cons_of_mem _ among, inside⟩
      | variableName => exact ⟨_, List.mem_cons_self, List.mem_cons_self⟩

theorem parseTemplate_of_spelling {rest : List Char} {segments : List Segment}
    (spelling : Spelling (rest.splitOn '/') segments) (once : (openSegments segments).Nodup) :
    parseTemplate ('/' :: rest) = .ok (.template ('/' :: rest) segments) := by
  have read : parseSegments [] (rest.splitOn '/') = some ([] ++ segments) :=
    parseSegments_of_spelling spelling once
  rw [parseTemplate, read]
  rfl

theorem parsePath_of_plain {raw : List Char} (plain : '*' ∉ raw) :
    parsePath raw = .ok (.exact raw) := by
  rw [parsePath]
  cases closed : ['/', '*'].isSuffixOf? raw with
  | some base =>
      rw [← List.isSuffixOf?_eq_some_iff_append_eq.mp closed] at plain
      exact absurd (by simp) plain
  | none => exact if_neg plain

theorem parsePath_of_base {base : List Char} (plain : '*' ∉ base) :
    parsePath (base ++ ['/', '*']) = .ok (.below base) := by
  have closed : ['/', '*'].isSuffixOf? (base ++ ['/', '*']) = some base :=
    List.isSuffixOf?_eq_some_iff_append_eq.mpr rfl
  rw [parsePath, closed]
  exact if_neg plain

theorem parse_path {declaration rest : List Char} (raw : dropMark declaration = '/' :: rest)
    (more : rest ≠ []) (plain : ∀ c ∈ '/' :: rest, isBrace c = false) :
    Spec.parse declaration = parsePath ('/' :: rest) := by
  rw [Spec.parse, raw, if_neg (by simp), if_neg (by simp [any_isBrace_eq_false plain])]
  cases rest with
  | nil => exact absurd rfl more
  | cons c rest => rfl

theorem parse_of_declares {declaration raw : List Char} {s : Spec}
    (unmarked : dropMark declaration = raw) (declares : Declares raw s) :
    Spec.parse declaration = .ok s := by
  cases declares with
  | default =>
      rw [Spec.parse, unmarked]
      rfl
  | @suffix extension some_left fine =>
      have plain : ∀ c ∈ '*' :: '.' :: extension, isBrace c = false :=
        List.forall_mem_cons.mpr ⟨rfl, List.forall_mem_cons.mpr
          ⟨rfl, fun c among => (fine c among).2.2⟩⟩
      have slash : '/' ∉ extension := fun among => (fine _ among).1 rfl
      have star : '*' ∉ extension := fun among => (fine _ among).2.1 rfl
      rw [Spec.parse, unmarked, if_neg (by simp), if_neg (by simp [any_isBrace_eq_false plain])]
      simp [some_left, slash, star]
  | @exact rest more plain =>
      have star : '*' ∉ '/' :: rest := by
        simpa using fun among => (plain _ among).1 rfl
      have no_brace : ∀ c ∈ '/' :: rest, isBrace c = false :=
        List.forall_mem_cons.mpr ⟨rfl, fun c among => (plain c among).2⟩
      rw [parse_path unmarked more no_brace, parsePath_of_plain star]
  | @below base rooted plain =>
      have star : '*' ∉ base := fun among => (plain _ among).1 rfl
      obtain ⟨rest, more, split⟩ : ∃ rest, rest ≠ [] ∧ base ++ ['/', '*'] = '/' :: rest := by
        rcases rooted with rfl | ⟨rest, rfl⟩
        · exact ⟨['*'], by simp, rfl⟩
        · exact ⟨rest ++ ['/', '*'], by simp, rfl⟩
      have no_brace : ∀ c ∈ base ++ ['/', '*'], isBrace c = false := by
        intro c among
        rcases List.mem_append.mp among with within | behind
        · exact (plain c within).2
        · rcases List.mem_pair.mp behind with rfl | rfl
          · rfl
          · rfl
      rw [split] at unmarked no_brace
      rw [parse_path unmarked more no_brace, ← split, parsePath_of_base star]
  | @template rest segments spelling some_open once =>
      obtain ⟨part, among, inside⟩ := exists_brace spelling some_open
      have braced : ('/' :: rest).any isBrace = true :=
        List.any_eq_true.mpr ⟨'{', List.mem_cons_of_mem _ (mem_of_mem_splitOn among inside), rfl⟩
      rw [Spec.parse, unmarked, if_neg (by simp), if_pos braced,
        parseTemplate_of_spelling spelling once]

/-! ### Refusals -/

theorem parseTemplate_error {raw : List Char} {e : SpecError} (braced : raw.any isBrace = true)
    (refused : parseTemplate raw = .error e) : e = fault raw := by
  obtain ⟨c, among, brace⟩ := List.any_eq_true.mp braced
  have no_suffix : ¬ OpensSuffix raw := fun opens => absurd (opens.2 c among) (by simp [brace])
  rw [parseTemplate.eq_def] at refused
  split at refused
  · rename_i rest
    split at refused
    · exact absurd refused (by simp)
    · rw [← Except.error.inj refused, fault, if_neg (by simp), if_neg (by simp),
        if_pos ⟨by simp, braced⟩]
  · rename_i unrooted
    have rootless : ¬ ['/'] <+: raw := by
      rintro ⟨rest, rfl⟩
      exact unrooted rest rfl
    rw [← Except.error.inj refused, fault, if_neg (List.ne_nil_of_mem among),
      if_pos ⟨rootless, no_suffix⟩]

theorem parsePath_error {raw : List Char} {e : SpecError} (refused : parsePath raw = .error e) :
    e = .misplacedWildcard raw := by
  rw [parsePath] at refused
  split at refused <;> split at refused
  · exact (Except.error.inj refused).symm
  · exact absurd refused (by simp)
  · exact (Except.error.inj refused).symm
  · exact absurd refused (by simp)

theorem fault_of_plain {raw : List Char} (some_left : raw ≠ [])
    (plain : ∀ c ∈ raw, isBrace c = false) (opens : ['/'] <+: raw ∨ ['*', '.'] <+: raw) :
    fault raw = .misplacedWildcard raw := by
  rw [fault, if_neg some_left, if_neg, if_neg (by simp [any_isBrace_eq_false plain])]
  rintro ⟨rootless, no_suffix⟩
  rcases opens with rooted | wild
  · exact rootless rooted
  · exact no_suffix ⟨wild, plain⟩

theorem fault_of_parse {declaration : List Char} {e : SpecError}
    (refused : Spec.parse declaration = .error e) : e = fault (dropMark declaration) := by
  rw [Spec.parse] at refused
  generalize dropMark declaration = raw at refused ⊢
  split at refused
  · rename_i nothing
    rw [← Except.error.inj refused, fault, if_pos (List.isEmpty_iff.mp nothing)]
  · rename_i some_left
    rw [List.isEmpty_iff] at some_left
    split at refused
    · rename_i braced
      exact parseTemplate_error braced refused
    · rename_i no_brace
      have plain : ∀ c ∈ raw, isBrace c = false := by
        intro c among
        exact Bool.eq_false_iff.mpr fun brace => no_brace (List.any_eq_true.mpr ⟨c, among, brace⟩)
      split at refused
      · exact absurd refused (by simp)
      · rename_i extension
        split at refused
        · rw [← Except.error.inj refused, fault_of_plain some_left plain (.inr ⟨extension, rfl⟩)]
        · exact absurd refused (by simp)
      · rename_i rest _
        rw [parsePath_error refused, fault_of_plain some_left plain (.inl ⟨rest, rfl⟩)]
      · rename_i not_suffix rootless
        have unopened : ¬ ['/'] <+: raw ∧ ¬ OpensSuffix raw := by
          constructor
          · rintro ⟨rest, rfl⟩
            exact rootless rest rfl
          · rintro ⟨⟨extension, rfl⟩, -⟩
            exact not_suffix extension rfl
        rw [← Except.error.inj refused, fault, if_neg some_left, if_pos unopened]

/-- Exactly the declarations are read. A text has one mark taken off, if it has one; what is left
is read as a spec just when it has the form that declares this spec, and a text of no such form is
refused for its fault. -/
theorem Spec.parse_reads_exactly_declarations (declaration : List Char) :
    ∃ raw, Unmarked declaration raw
      ∧ (∀ s, Spec.parse declaration = .ok s ↔ Declares raw s)
      ∧ ∀ e, Spec.parse declaration = .error e ↔ (∀ s, ¬ Declares raw s) ∧ e = fault raw := by
  have read (s : Spec) : Spec.parse declaration = .ok s ↔ Declares (dropMark declaration) s :=
    ⟨declares_of_parse, parse_of_declares rfl⟩
  refine ⟨dropMark declaration, unmarked_dropMark declaration, read, ?_⟩
  intro e
  constructor
  · intro refused
    refine ⟨?_, fault_of_parse refused⟩
    intro s declares
    rw [parse_of_declares rfl declares] at refused
    exact absurd refused (by simp)
  · rintro ⟨undeclared, rfl⟩
    cases outcome : Spec.parse declaration with
    | ok s => exact absurd ((read s).mp outcome) (undeclared s)
    | error e => rw [fault_of_parse outcome]

/-- Only one star may end a path, even behind a slash of its own. -/
example : Spec.parse "/*/*".toList = .error (.misplacedWildcard "/*/*".toList) := by rfl

/-- Neither a path nor a suffix spec: the brace rules out the second. -/
example : Spec.parse "*.{x}".toList = .error (.badStart "*.{x}".toList) := by rfl

/-- A name may hold a star, and a segment may be empty. -/
example : Spec.parse "//{*}".toList
    = .ok (.template "//{*}".toList [.literal [], .variableName ['*']]) := by rfl

end Gateway.Path
