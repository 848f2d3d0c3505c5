import Gateway.Proofs.Path.Grammar

/-!
Templates filled in. Values for its variables turn a template into a path. They can be put into its
text, brace by brace, or into its segments; for a declared template both give the same, and where no
value holds a slash, the parts of the path are the segments again.
-/
namespace Gateway.Path

/-- A text with a value in place of every variable in braces. What has been read of a variable that
is still open is given first. -/
def substitute (value : List Char → List Char) : Option (List Char) → List Char → List Char
  | _, [] => []
  | none, '{' :: rest => substitute value (some []) rest
  | none, c :: rest => c :: substitute value none rest
  | some name, '}' :: rest => value name ++ substitute value none rest
  | some name, c :: rest => substitute value (some (name ++ [c])) rest

def variableNames (segments : List Segment) : List (List Char) :=
  segments.filterMap fun
    | .literal _ => none
    | .variableName name => some name

def Segment.render (value : List Char → List Char) : Segment → List Char
  | .literal text => text
  | .variableName name => value name

/-- A value that a variable can have. -/
def IsWord (word : List Char) : Prop := word ≠ [] ∧ '/' ∉ word

variable {value value' : List Char → List Char} {parts : List (List Char)}
  {segments : List Segment} {rest declaration : List Char}

theorem variableNames_eq (segments : List Segment) :
    (variableNames segments).map Segment.variableName = openSegments segments := by
  induction segments with
  | nil => rfl
  | cons segment segments ih =>
      cases segment with
      | literal text => exact ih
      | variableName name => exact congrArg (Segment.variableName name :: ·) ih

theorem nodup_variableNames (once : (openSegments segments).Nodup) :
    (variableNames segments).Nodup := by
  rw [← variableNames_eq] at once
  exact List.Pairwise.of_map _
    (fun _ _ differ same => differ (congrArg Segment.variableName same)) once

theorem render_congr (same : ∀ name ∈ variableNames segments, value name = value' name) :
    segments.map (Segment.render value) = segments.map (Segment.render value') := by
  induction segments with
  | nil => rfl
  | cons segment segments ih =>
      cases segment with
      | literal text => exact congrArg (text :: ·) (ih same)
      | variableName name =>
          obtain ⟨here, later⟩ := List.forall_mem_cons.mp same
          rw [List.map_cons, List.map_cons, ih later, Segment.render, Segment.render, here]

/-! ### Substitution in the text -/

theorem substitute_plain {text : List Char} (plain : ∀ c ∈ text, isBrace c = false) :
    substitute value none (text ++ rest) = text ++ substitute value none rest := by
  induction text with
  | nil => rfl
  | cons c text ih =>
      obtain ⟨no_brace, later⟩ := List.forall_mem_cons.mp plain
      have other : c ≠ '{' := by
        rintro rfl
        exact absurd no_brace (by decide)
      rw [List.cons_append, substitute, ih later]
      · rfl
      · exact other

theorem substitute_open {before name : List Char} (plain : ∀ c ∈ name, isBrace c = false) :
    substitute value (some before) (name ++ '}' :: rest)
      = value (before ++ name) ++ substitute value none rest := by
  induction name generalizing before with
  | nil => rw [List.nil_append, substitute, List.append_nil]
  | cons c name ih =>
      obtain ⟨no_brace, later⟩ := List.forall_mem_cons.mp plain
      have other : c ≠ '}' := by
        rintro rfl
        exact absurd no_brace (by decide)
      rw [List.cons_append, substitute, ih later, List.append_assoc, List.singleton_append]
      exact other

theorem substitute_spelled {part : List Char} {segment : Segment}
    (spelled : segment.Spelled part) :
    substitute value none (part ++ rest) = segment.render value ++ substitute value none rest := by
  cases spelled with
  | literal plain => exact substitute_plain fun c among => (plain c among).2
  | @variableName name named plain =>
      have opened : substitute value none ('{' :: (name ++ '}' :: rest))
          = substitute value (some []) (name ++ '}' :: rest) := rfl
      rw [List.cons_append, List.append_assoc, List.singleton_append, opened,
        substitute_open plain]
      rfl

theorem substitute_spelling (spelling : Spelling parts segments) :
    substitute value none (['/'].intercalate parts)
      = ['/'].intercalate (segments.map (Segment.render value)) := by
  induction spelling with
  | nil => rfl
  | @cons part parts segment segments spelled later ih =>
      cases later with
      | nil =>
          have whole : substitute value none (part ++ []) = segment.render value ++ [] :=
            substitute_spelled spelled
          rw [List.append_nil, List.append_nil] at whole
          rw [List.intercalate_singleton, whole, List.map_singleton, List.intercalate_singleton]
      | @cons part' parts' segment' segments' spelled' later =>
          have slash (text : List Char) :
              substitute value none ('/' :: text) = '/' :: substitute value none text := rfl
          rw [List.intercalate_cons_cons, List.append_assoc, substitute_spelled spelled,
            List.singleton_append, slash, ih, List.map_cons, List.map_cons, List.map_cons,
            List.intercalate_cons_cons, List.append_assoc, List.singleton_append]

theorem substitute_template (spelling : Spelling (rest.splitOn '/') segments) :
    substitute value none ('/' :: rest)
      = '/' :: ['/'].intercalate (segments.map (Segment.render value)) := by
  have whole : substitute value none (['/'].intercalate (rest.splitOn '/')) = _ :=
    substitute_spelling spelling
  rw [List.intercalate_splitOn] at whole
  exact congrArg ('/' :: ·) whole

/-! ### The parts of what is filled in -/

theorem render_slashless (spelling : Spelling parts segments)
    (pieces : ∀ part ∈ parts, '/' ∉ part)
    (words : ∀ name ∈ variableNames segments, '/' ∉ value name) :
    ∀ part ∈ segments.map (Segment.render value), '/' ∉ part := by
  induction spelling with
  | nil => exact fun part among => absurd among List.not_mem_nil
  | cons spelled later ih =>
      obtain ⟨first, others⟩ := List.forall_mem_cons.mp pieces
      cases spelled with
      | literal => exact List.forall_mem_cons.mpr ⟨first, ih others words⟩
      | variableName =>
          obtain ⟨here, later⟩ := List.forall_mem_cons.mp words
          exact List.forall_mem_cons.mpr ⟨here, ih others later⟩

/-- Values without slashes fill a template with parts that can be told apart again. -/
theorem splitOn_render (spelling : Spelling (rest.splitOn '/') segments)
    (words : ∀ name ∈ variableNames segments, '/' ∉ value name) :
    (['/'].intercalate (segments.map (Segment.render value))).splitOn '/'
      = segments.map (Segment.render value) := by
  have some_segment : segments.map (Segment.render value) ≠ [] := by
    intro none_left
    rw [List.map_eq_nil_iff] at none_left
    rw [none_left] at spelling
    cases split : rest.splitOn '/' with
    | nil => exact List.splitOn_ne_nil '/' rest split
    | cons first others =>
        rw [split] at spelling
        cases spelling
  have pieces : ∀ part ∈ rest.splitOn '/', '/' ∉ part :=
    fun part among => not_mem_of_mem_splitOn among
  exact List.splitOn_intercalate '/' (render_slashless spelling pieces words) some_segment

end Gateway.Path
