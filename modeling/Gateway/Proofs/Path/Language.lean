import Gateway.Proofs.Path.Filling
import Gateway.Proofs.Path.Specificity

/-!
What specs match, in terms of what they declare. A path is matched just when it is in the declared
language, and what a template's variables are bound to is what turns the template into the path:
`matches_declared_language`.
-/
namespace Gateway.Path

/-- The text behind the last slash of a path, or all of it if there is none. -/
def IsLastPart (path last : List Char) : Prop :=
  '/' ∉ last ∧ (path = last ∨ ∃ front, path = front ++ '/' :: last)

def Match.value (m : Match) (name : List Char) : List Char := (m.param? name).getD []

namespace Spec

/-- The paths that a spec declares. -/
def Accepts (s : Spec) (path : List Char) : Prop :=
  match s with
  | .exact declared => path = declared
  | .below base => path = base ∨ ∃ rest, path = base ++ '/' :: rest
  | .suffix extension => ∃ last, IsLastPart path last ∧ '.' :: extension <:+ last
  | .template declaration segments => ∃ value : List Char → List Char,
    (∀ name ∈ variableNames segments, IsWord (value name))
      ∧ substitute value none declaration = path
  | .default => True

def parameters : Spec → List (List Char)
  | .template _ segments => variableNames segments
  | .exact _ | .below _ | .suffix _ | .default => []

end Spec

variable {path last base extension declaration : List Char} {parts : List (List Char)}
  {segments : List Segment} {params : List (List Char × List Char)}
  {value : List Char → List Char} {m : Match}

/-! ### The last part of a path -/

theorem lastSegment_append (front : List Char) (single : '/' ∉ last) :
    lastSegment (front ++ '/' :: last) = last := by
  have stop : (('/' :: front.reverse).takeWhile (· != '/')) = [] := rfl
  have all : ∀ c ∈ last.reverse, (c != '/') = true := by
    intro c among
    exact bne_iff_ne.mpr fun slash => single (slash ▸ List.mem_reverse.mp among)
  rw [lastSegment, List.reverse_append, List.reverse_cons, List.append_assoc,
    List.singleton_append, List.takeWhile_append_of_pos all, stop, List.append_nil,
    List.reverse_reverse]

theorem isLastPart_iff : IsLastPart path last ↔ last = lastSegment path := by
  constructor
  · rintro ⟨single, rfl | ⟨front, rfl⟩⟩
    · exact (Spec.lastSegment_of_no_slash single).symm
    · exact (lastSegment_append front single).symm
  · rintro rfl
    by_cases slash : '/' ∈ path
    · obtain ⟨before, after, whole, single⟩ :=
        List.eq_append_cons_of_mem (List.mem_reverse.mpr slash)
      have split : path = after.reverse ++ '/' :: before.reverse := by
        rw [← List.reverse_reverse path, whole]
        simp
      have last : lastSegment (after.reverse ++ '/' :: before.reverse) = before.reverse :=
        lastSegment_append after.reverse (by simpa using single)
      rw [← split] at last
      rw [last]
      exact ⟨by simpa using single, .inr ⟨_, split⟩⟩
    · rw [Spec.lastSegment_of_no_slash slash]
      exact ⟨slash, .inl rfl⟩

/-! ### Bindings -/

theorem bindSegments_render (some_left : ∀ name ∈ variableNames segments, value name ≠ []) :
    bindSegments segments (segments.map (Segment.render value))
      = some ((variableNames segments).map fun name => (name, value name)) := by
  induction segments with
  | nil => rfl
  | cons segment segments ih =>
      cases segment with
      | literal text =>
          rw [List.map_cons, Segment.render, bindSegments, if_pos rfl]
          exact ih some_left
      | variableName name =>
          obtain ⟨here, later⟩ := List.forall_mem_cons.mp some_left
          rw [List.map_cons, Segment.render, bindSegments, List.isEmpty_eq_false_iff.mpr here,
            if_neg Bool.false_ne_true, ih later]
          rfl

/-- Parts that are bound come of values, as no variable stands at two places. -/
theorem exists_values (distinct : (variableNames segments).Nodup)
    (bound : bindSegments segments parts = some params) :
    ∃ value : List Char → List Char, parts = segments.map (Segment.render value)
      ∧ ∀ name ∈ variableNames segments, value name ≠ [] := by
  have taken : Taken parts segments := bindSegments_isSome_iff.mp (by rw [bound]; rfl)
  clear bound
  induction taken with
  | nil => exact ⟨id, rfl, fun name among => absurd among List.not_mem_nil⟩
  | @cons part parts segment segments takes rest ih =>
      cases segment with
      | literal text =>
          obtain ⟨value, split, some_left⟩ := ih distinct
          obtain rfl : part = text := takes
          exact ⟨value, by rw [split]; rfl, some_left⟩
      | variableName name =>
          obtain ⟨apart, distinct⟩ := List.nodup_cons.mp distinct
          obtain ⟨value, split, some_left⟩ := ih distinct
          -- The value of the first variable is new; the others keep theirs.
          let extended : List Char → List Char := fun other =>
            if other = name then part else value other
          have others : ∀ other ∈ variableNames segments, value other = extended other := by
            intro other among
            exact (if_neg (ne_of_mem_of_not_mem among apart)).symm
          have first : extended name = part := if_pos rfl
          refine ⟨extended, ?_, List.forall_mem_cons.mpr ⟨?_, ?_⟩⟩
          · rw [List.map_cons, ← render_congr others, ← split, Segment.render, first]
          · rw [first]
            exact takes
          · intro other among
            rw [← others other among]
            exact some_left other among

theorem value_mem_render {name : List Char} (among : name ∈ variableNames segments) :
    value name ∈ segments.map (Segment.render value) := by
  obtain ⟨segment, within, named⟩ := List.mem_filterMap.mp among
  cases segment with
  | literal text => exact absurd named (by simp)
  | variableName other =>
      obtain rfl := Option.some.inj named
      exact List.mem_map.mpr ⟨_, within, rfl⟩

namespace Spec

variable {s : Spec}

/-- A template matches what it becomes when words stand for its variables, and binds these words. -/
theorem matchPath_template (declares : Declares declaration (template declaration segments)) :
    (template declaration segments).matchPath path = some m ↔ ∃ value : List Char → List Char,
      (∀ name ∈ variableNames segments, IsWord (value name))
        ∧ substitute value none declaration = path
        ∧ m = { spec := .template declaration segments, path, covered := path
                params := (variableNames segments).map fun name => (name, value name) } := by
  cases declares with
  | @template rest _ spelling some_open once =>
      constructor
      · intro matched
        rw [matchPath.eq_def] at matched
        dsimp only at matched
        split at matched
        · rename_i tail
          obtain ⟨params, bound, rfl⟩ := Option.map_eq_some_iff.mp matched
          obtain ⟨value, split, some_left⟩ := exists_values (nodup_variableNames once) bound
          have pieces : ∀ part ∈ tail.splitOn '/', '/' ∉ part :=
            fun part among => not_mem_of_mem_splitOn among
          refine ⟨value, ?_, ?_, ?_⟩
          · intro name among
            exact ⟨some_left name among, pieces _ (split ▸ value_mem_render among)⟩
          · rw [substitute_template spelling, ← split, List.intercalate_splitOn]
          · rw [split, bindSegments_render some_left] at bound
            rw [Option.some.inj bound]
        · exact absurd matched (by simp)
      · rintro ⟨value, words, rfl, rfl⟩
        rw [substitute_template spelling, matchPath,
          splitOn_render spelling fun name among => (words name among).2,
          bindSegments_render fun name among => (words name among).1]
        rfl

theorem accepts_iff {d : List Char} (declares : Declares d s) :
    s.Matches path ↔ s.Accepts path := by
  cases declares with
  | exact => exact matches_exact
  | below => exact matches_below
  | default => exact ⟨fun _ => trivial, fun _ => matches_default⟩
  | suffix =>
      rw [matches_suffix, Accepts]
      constructor
      · exact fun ends => ⟨_, isLastPart_iff.mpr rfl, ends⟩
      · rintro ⟨last, is_last, ends⟩
        rwa [← isLastPart_iff.mp is_last]
  | template spelling some_open once =>
      rw [Matches, Option.isSome_iff_exists, Accepts]
      constructor
      · rintro ⟨m, matched⟩
        obtain ⟨value, words, whole, -⟩ :=
          (matchPath_template (.template spelling some_open once)).mp matched
        exact ⟨value, words, whole⟩
      · rintro ⟨value, words, whole⟩
        exact ⟨_, (matchPath_template (.template spelling some_open once)).mpr
          ⟨value, words, whole, rfl⟩⟩

/-- What a match says, whatever the spec: all of the path is covered or comes behind what is
covered, and only a template binds anything. -/
theorem matchPath_parts (matched : s.matchPath path = some m) : m.spec = s ∧ m.path = path
    ∧ m.covered ++ m.info.getD [] = path ∧ (∀ base, s = .below base → m.covered = base)
    ∧ ((∀ declaration segments, s ≠ .template declaration segments) → m.params = []) := by
  cases s with
  | exact declared =>
      obtain ⟨-, same⟩ := Option.ite_none_right_eq_some.mp matched
      obtain rfl := Option.some.inj same
      exact ⟨rfl, rfl, List.append_nil _, nofun, fun _ => rfl⟩
  | below base =>
      rw [matchPath.eq_def] at matched
      dsimp only at matched
      split at matched
      · rename_i found
        obtain rfl := Option.some.inj matched
        have whole := List.isPrefixOf?_eq_some_iff_append_eq.mp found
        exact ⟨rfl, rfl, whole, fun _ same => Spec.below.inj same, fun _ => rfl⟩
      · rename_i rest found
        obtain rfl := Option.some.inj matched
        have whole := List.isPrefixOf?_eq_some_iff_append_eq.mp found
        exact ⟨rfl, rfl, whole, fun _ same => Spec.below.inj same, fun _ => rfl⟩
      · exact absurd matched (by simp)
  | suffix extension =>
      obtain ⟨-, same⟩ := Option.ite_none_right_eq_some.mp matched
      obtain rfl := Option.some.inj same
      exact ⟨rfl, rfl, List.append_nil _, nofun, fun _ => rfl⟩
  | template declaration segments =>
      rw [matchPath.eq_def] at matched
      dsimp only at matched
      split at matched
      · obtain ⟨params, -, rfl⟩ := Option.map_eq_some_iff.mp matched
        exact ⟨rfl, rfl, List.append_nil _, nofun, fun closed => absurd rfl (closed _ _)⟩
      · exact absurd matched (by simp)
  | default =>
      obtain rfl := Option.some.inj matched
      exact ⟨rfl, rfl, List.append_nil _, nofun, fun _ => rfl⟩

/-- A path is matched just when the spec declares it. A match names the spec and the path, and what
it covers and what lies below make up the path. It binds exactly the variables of the spec. For a
template the values turn the declaration into the path, and no other words do. -/
theorem matches_declared_language (declared : s.Declared) (path : List Char) :
    ((∃ m, s.matchPath path = some m) ↔ s.Accepts path)
      ∧ ∀ m, s.matchPath path = some m → m.spec = s ∧ m.path = path
        ∧ m.covered ++ m.info.getD [] = path ∧ (∀ base, s = .below base → m.covered = base)
        ∧ m.params.map Prod.fst = s.parameters ∧ s.parameters.Nodup
        ∧ ∀ declaration segments, s = .template declaration segments →
          substitute m.value none declaration = path
            ∧ ∀ value : List Char → List Char, (∀ name ∈ s.parameters, IsWord (value name)) →
              (substitute value none declaration = path
                ↔ ∀ name ∈ s.parameters, m.param? name = some (value name)) := by
  obtain ⟨d, parsed⟩ := declared
  have declares := declares_of_parse parsed
  generalize dropMark d = raw at declares
  refine ⟨Option.isSome_iff_exists.symm.trans (accepts_iff declares), ?_⟩
  intro m matched
  obtain ⟨spec, whole, covered, from_base, closed⟩ := matchPath_parts matched
  refine ⟨spec, whole, covered, from_base, ?_⟩
  cases declares with
  | default | suffix | exact | below => exact ⟨by rw [closed nofun]; rfl, .nil, nofun⟩
  | @template rest segments spelling some_open once =>
      have template := Declares.template spelling some_open once
      obtain ⟨value, words, filled, rfl⟩ := (matchPath_template template).mp matched
      refine ⟨?_, nodup_variableNames once, ?_⟩
      · rw [List.map_map]
        exact List.map_id _
      rintro declaration segments' ⟨⟩
      have bound {value : List Char → List Char} {name : List Char}
          (among : name ∈ variableNames segments) :
          ((variableNames segments).map fun name => (name, value name)).lookup name
            = some (value name) := List.lookup_graph value among
      refine ⟨?_, fun value' words' => ⟨fun filled' name among => ?_, fun named => ?_⟩⟩
      · rw [← filled, substitute_template spelling, substitute_template spelling]
        refine congrArg (fun parts => '/' :: ['/'].intercalate parts) (render_congr ?_)
        intro name among
        rw [Match.value, Match.param?, bound among, Option.getD_some]
      · have again := (matchPath_template template).mpr ⟨value', words', filled', rfl⟩
        rw [matched] at again
        rw [Match.param?, congrArg Match.params (Option.some.inj again)]
        exact bound among
      · rw [← filled, substitute_template spelling, substitute_template spelling]
        refine congrArg (fun parts => '/' :: ['/'].intercalate parts) (render_congr ?_)
        intro name among
        have same := named name among
        rw [Match.param?, bound among] at same
        exact (Option.some.inj same).symm

/-- A template with two variables. -/
theorem matches_declared_language_of_rooms :
    let s : Spec := .template "/rooms/{room}/users/{user}".toList
      [.literal "rooms".toList, .variableName "room".toList, .literal "users".toList,
        .variableName "user".toList]
    let path := "/rooms/lobby/users/ann".toList
    s.Declared ∧ s.Accepts path ∧ ∃ m, s.matchPath path = some m
      ∧ m.params = [("room".toList, "lobby".toList), ("user".toList, "ann".toList)]
      ∧ substitute m.value none "/rooms/{room}/users/{user}".toList = path := by
  intro s path
  have declared : s.Declared := ⟨"/rooms/{room}/users/{user}".toList, rfl⟩
  obtain ⟨language, tells⟩ := matches_declared_language declared path
  obtain ⟨m, matched⟩ : ∃ m, s.matchPath path = some m := ⟨_, rfl⟩
  obtain ⟨-, -, -, -, -, -, filled⟩ := tells m matched
  refine ⟨declared, language.mp ⟨m, matched⟩, m, matched, ?_, (filled _ _ rfl).1⟩
  rw [← Option.some.inj matched]
  rfl

end Spec
end Gateway.Path
