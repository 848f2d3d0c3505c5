import Gateway.Proofs.Path.Filling
import Gateway.Proofs.Path.Table

/-!
Precedence and what specs match. A spec that matches less than another wins over it, so a table
never hands a path to a spec when one that says more about the path is registered.
-/
namespace Gateway.Path

def Segment.Takes (part : List Char) : Segment → Prop
  | .literal text => part = text
  | .variableName _ => part ≠ []

inductive Taken : List (List Char) → List Segment → Prop
  | nil : Taken [] []
  | cons {part : List Char} {parts : List (List Char)} {segment : Segment}
      {segments : List Segment} : segment.Takes part → Taken parts segments →
      Taken (part :: parts) (segment :: segments)

theorem Taken.length_eq {parts : List (List Char)} {segments : List Segment}
    (taken : Taken parts segments) : parts.length = segments.length := by
  induction taken with
  | nil => rfl
  | cons _ _ ih => exact congrArg Nat.succ ih

theorem bindSegments_isSome_iff {segments : List Segment} {parts : List (List Char)} :
    (bindSegments segments parts).isSome = true ↔ Taken parts segments := by
  induction segments generalizing parts with
  | nil =>
      cases parts with
      | nil => exact ⟨fun _ => .nil, fun _ => rfl⟩
      | cons part parts => exact ⟨fun h => absurd h (by simp [bindSegments]), fun h => by cases h⟩
  | cons segment segments ih =>
      cases parts with
      | nil =>
          refine ⟨fun h => ?_, fun h => by cases h⟩
          cases segment with
          | literal | variableName => exact absurd h (by simp [bindSegments])
      | cons part parts =>
          constructor
          · intro h
            cases segment with
            | literal text =>
                rw [bindSegments] at h
                split at h
                · rename_i same
                  exact .cons same.symm (ih.mp h)
                · exact absurd h (by simp)
            | variableName name =>
                rw [bindSegments] at h
                split at h
                · exact absurd h (by simp)
                · rename_i some_left
                  rw [Option.isSome_map] at h
                  exact .cons (by simpa [Segment.Takes] using some_left) (ih.mp h)
          · intro h
            cases h with
            | cons takes rest =>
                cases segment with
                | literal text =>
                    rw [bindSegments, if_pos (Eq.symm takes)]
                    exact ih.mpr rest
                | variableName name =>
                    have some_left : part.isEmpty = false := by simpa [Segment.Takes] using takes
                    rw [bindSegments, some_left, if_neg Bool.false_ne_true, Option.isSome_map]
                    exact ih.mpr rest

namespace Spec

def Matches (s : Spec) (path : List Char) : Prop := (s.matchPath path).isSome = true

instance (s : Spec) (path : List Char) : Decidable (s.Matches path) :=
  inferInstanceAs (Decidable (_ = true))

/-- The first spec matches less than the second. -/
structure Narrower (s t : Spec) : Prop where
  within : ∀ path, s.Matches path → t.Matches path
  beyond : ∃ path, t.Matches path ∧ ¬ s.Matches path

variable {s t : Spec} {path base declared extension declaration : List Char}
  {segments : List Segment}

theorem matches_exact : (exact declared).Matches path ↔ path = declared := by
  rw [Matches, matchPath]
  split
  · rename_i same
    simp [same]
  · rename_i differ
    simp [differ]

theorem matches_default : default.Matches path := rfl

theorem matches_below : (below base).Matches path ↔
    path = base ∨ ∃ rest, path = base ++ '/' :: rest := by
  rw [Matches, matchPath]
  split
  · rename_i found
    rw [List.isPrefixOf?_eq_some_iff_append_eq, List.append_nil] at found
    simp [← found]
  · rename_i rest found
    rw [List.isPrefixOf?_eq_some_iff_append_eq] at found
    simp [← found]
  · rename_i no_end no_slash
    refine ⟨fun h => absurd h (by simp), ?_⟩
    rintro (rfl | ⟨rest, rfl⟩)
    · exact (no_end (List.isPrefixOf?_eq_some_iff_append_eq.mpr (List.append_nil _))).elim
    · exact (no_slash rest (List.isPrefixOf?_eq_some_iff_append_eq.mpr rfl)).elim

theorem matches_suffix : (suffix extension).Matches path ↔
    '.' :: extension <:+ lastSegment path := by
  rw [Matches, matchPath, ← List.isSuffixOf_iff_suffix]
  split
  · rename_i found
    simp [found]
  · rename_i missed
    simp [missed]

theorem matches_template : (template declaration segments).Matches path ↔
    ∃ rest, path = '/' :: rest ∧ Taken (rest.splitOn '/') segments := by
  unfold Matches matchPath
  dsimp only
  split
  · rename_i rest
    rw [Option.isSome_map, bindSegments_isSome_iff]
    refine ⟨fun taken => ⟨rest, rfl, taken⟩, ?_⟩
    rintro ⟨rest', same, taken⟩
    rwa [(List.cons.inj same).2]
  · rename_i no_slash
    refine ⟨fun h => absurd h (by simp), ?_⟩
    rintro ⟨rest, rfl, -⟩
    exact (no_slash rest rfl).elim

end Spec

/-! ### Templates -/

/-- The part of a path that a segment stands for when every variable is bound to one word. -/
def Segment.fill (word : List Char) : Segment → List Char
  | .literal text => text
  | .variableName _ => word

theorem fill_eq_render (word : List Char) :
    Segment.fill word = Segment.render fun _ => word := by
  funext segment
  cases segment with
  | literal | variableName => rfl

theorem taken_fill {word : List Char} (some_left : word ≠ []) (segments : List Segment) :
    Taken (segments.map (Segment.fill word)) segments := by
  induction segments with
  | nil => exact .nil
  | cons segment segments ih =>
      cases segment with
      | literal text => exact .cons rfl ih
      | variableName name => exact .cons some_left ih

theorem splitOn_fill {declaration word : List Char} {segments : List Segment}
    (declared : Declares declaration (.template declaration segments)) (no_slash : '/' ∉ word) :
    (['/'].intercalate (segments.map (Segment.fill word))).splitOn '/'
      = segments.map (Segment.fill word) := by
  cases declared with
  | template spelling =>
      rw [fill_eq_render]
      exact splitOn_render spelling fun _ _ => no_slash

theorem matches_fill {declaration word : List Char} {segments : List Segment}
    (declared : Declares declaration (.template declaration segments)) (some_left : word ≠ [])
    (no_slash : '/' ∉ word) : (Spec.template declaration segments).Matches
      ('/' :: ['/'].intercalate (segments.map (Segment.fill word))) := by
  refine Spec.matches_template.mpr ⟨_, rfl, ?_⟩
  rw [splitOn_fill declared no_slash]
  exact taken_fill some_left segments

theorem fill_inj {word word' : List Char} {segments : List Segment}
    (some_open : openSegments segments ≠ [])
    (same : segments.map (Segment.fill word) = segments.map (Segment.fill word')) :
    word = word' := by
  induction segments with
  | nil => exact absurd rfl some_open
  | cons segment segments ih =>
      obtain ⟨first, later⟩ := List.cons.inj same
      cases segment with
      | literal text => exact ih some_open later
      | variableName name => exact first

/-- What a segment takes, whatever a variable is called. -/
def Segment.shape : Segment → Option (List Char)
  | .literal text => some text
  | .variableName _ => none

/-- Place by place, the first template takes no more than the second. -/
inductive Refines : List Segment → List Segment → Prop
  | nil : Refines [] []
  | same {text : List Char} {rest rest' : List Segment} : Refines rest rest' →
      Refines (.literal text :: rest) (.literal text :: rest')
  | fixes {text name : List Char} {rest rest' : List Segment} : text ≠ [] → Refines rest rest' →
      Refines (.literal text :: rest) (.variableName name :: rest')
  | leaves {name name' : List Char} {rest rest' : List Segment} : Refines rest rest' →
      Refines (.variableName name :: rest) (.variableName name' :: rest')

variable {segments segments' : List Segment}

def fixedLength (segments : List Segment) : Nat :=
  (segments.map (Segment.fill [])).flatten.length

theorem length_le_fixedLength {text : List Char} (among : .literal text ∈ segments) :
    text.length ≤ fixedLength segments := by
  have piece : text ∈ segments.map (Segment.fill []) := List.mem_map.mpr ⟨_, among, rfl⟩
  exact (List.sublist_flatten_of_mem piece).length_le

/-- A word that is longer than all fixed text of a template tells its variables from that text. -/
theorem refines_of_taken {word : List Char} (longer : fixedLength segments' < word.length)
    (taken : Taken (segments.map (Segment.fill word)) segments') : Refines segments segments' := by
  have foreign : ∀ text, .literal text ∈ segments' → word ≠ text := by
    rintro text among rfl
    exact absurd longer (Nat.not_lt.mpr (length_le_fixedLength among))
  clear longer
  induction segments generalizing segments' with
  | nil =>
      cases taken with
      | nil => exact .nil
  | cons segment segments ih =>
      cases taken with
      | @cons _ _ segment' segments' takes rest =>
          have later := ih rest fun text among => foreign text (List.mem_cons_of_mem _ among)
          cases segment' with
          | literal text =>
              cases segment with
              | literal text' =>
                  obtain rfl : text' = text := takes
                  exact .same later
              | variableName name => exact absurd takes (foreign text List.mem_cons_self)
          | variableName name =>
              cases segment with
              | literal text' => exact .fixes takes later
              | variableName name' => exact .leaves later

theorem Refines.literals (refines : Refines segments segments') :
    (segments'.filter Segment.isLiteral).length ≤ (segments.filter Segment.isLiteral).length := by
  induction refines with
  | nil => exact Nat.le_refl _
  | same later ih => exact Nat.succ_le_succ ih
  | fixes some_left later ih => exact Nat.le_succ_of_le ih
  | leaves later ih => exact ih

theorem Refines.shape_eq (refines : Refines segments segments')
    (as_many : (segments.filter Segment.isLiteral).length
      ≤ (segments'.filter Segment.isLiteral).length) :
    segments.map Segment.shape = segments'.map Segment.shape := by
  induction refines with
  | nil => rfl
  | @same text rest rest' later ih =>
      exact congrArg (some text :: ·) (ih (Nat.le_of_succ_le_succ as_many))
  | @fixes text name rest rest' some_left later ih =>
      have more : (rest.filter Segment.isLiteral).length + 1
        ≤ (rest'.filter Segment.isLiteral).length := as_many
      exact absurd (Nat.le_trans more later.literals) (Nat.not_succ_le_self _)
  | leaves later ih => exact congrArg (none :: ·) (ih as_many)

theorem Taken.of_shape_eq {parts : List (List Char)} (taken : Taken parts segments)
    (same : segments.map Segment.shape = segments'.map Segment.shape) : Taken parts segments' := by
  induction taken generalizing segments' with
  | nil =>
      obtain rfl := List.map_eq_nil_iff.mp same.symm
      exact .nil
  | @cons part parts segment segments takes rest ih =>
      obtain ⟨segment', others, rfl, first, later⟩ := List.map_eq_cons_iff.mp same.symm
      refine .cons ?_ (ih later.symm)
      cases segment with
      | literal text =>
          cases segment' with
          | literal text' => exact Eq.trans takes (Option.some.inj first).symm
          | variableName name => exact absurd first (by simp [Segment.shape])
      | variableName name =>
          cases segment' with
          | literal text => exact absurd first (by simp [Segment.shape])
          | variableName name' => exact takes

/-! ### Which of two specs wins -/

namespace Spec

variable {s t : Spec} {base base' extension extension' declaration declaration' : List Char}

theorem priority_of_rank (before : s.group.rank < t.group.rank) : s.priority t = .lt := by
  rw [priority, Nat.compare_eq_lt.mpr before]
  rfl

theorem priority_of_specificity (group : s.group.rank = t.group.rank)
    (more : t.specificity < s.specificity) : s.priority t = .lt := by
  rw [priority, Nat.compare_eq_eq.mpr group, Nat.compare_eq_lt.mpr more]
  rfl

theorem Narrower.below_below (narrower : (below base).Narrower (below base')) :
    Text.byteLength base' < Text.byteLength base := by
  rcases matches_below.mp (narrower.within base (matches_below.mpr (.inl rfl))) with same | more
  · obtain ⟨path, does, does_not⟩ := narrower.beyond
    rw [same] at does_not
    exact absurd does does_not
  · obtain ⟨rest, rfl⟩ := more
    have slash : Text.byteLength ('/' :: rest) = 1 + Text.byteLength rest := rfl
    rw [Text.byteLength_append, slash]
    omega

/-- A base has paths of any number of parts below it; a template has not. -/
theorem not_narrower_below_template : ¬ (below base).Narrower (template declaration segments) := by
  intro narrower
  have split (more : List Char) := matches_template.mp
    (narrower.within (base ++ '/' :: more) (matches_below.mpr (.inr ⟨more, rfl⟩)))
  obtain ⟨rest, shorter, taken⟩ := split []
  obtain ⟨rest', longer, taken'⟩ := split ['/']
  have behind : rest' = rest ++ ['/'] := by
    have both : base ++ ['/', '/'] = base ++ ['/'] ++ ['/'] := by simp
    rw [both, shorter] at longer
    exact (List.cons.inj longer).2.symm
  have parts := taken'.length_eq
  rw [behind, List.splitOn_append_cons_self, List.length_append, taken.length_eq,
    List.splitOn_nil] at parts
  exact absurd parts (by simp)

theorem not_narrower_below_exact : ¬ (below base).Narrower (exact declaration) := by
  intro narrower
  have bare := matches_exact.mp (narrower.within base (matches_below.mpr (.inl rfl)))
  have under := matches_exact.mp
    (narrower.within (base ++ ['/']) (matches_below.mpr (.inr ⟨[], rfl⟩)))
  rw [← bare] at under
  exact absurd (List.append_right_eq_self.mp under) (by simp)

theorem lastSegment_of_no_slash {path : List Char} (no_slash : '/' ∉ path) :
    lastSegment path = path := by
  have all : ∀ c ∈ path.reverse, (c != '/') = true := by
    intro c among
    exact bne_iff_ne.mpr fun slash => no_slash (slash ▸ List.mem_reverse.mp among)
  have whole : (path.reverse ++ []).takeWhile (· != '/')
      = path.reverse ++ [].takeWhile (· != '/') :=
    List.takeWhile_append_of_pos all
  rw [List.takeWhile_nil, List.append_nil] at whole
  rw [lastSegment, whole, List.reverse_reverse]

theorem suffix_shorter (ends : '.' :: extension' <:+ '.' :: extension) :
    extension = extension' ∨ Text.byteLength extension' < Text.byteLength extension := by
  obtain ⟨front, split⟩ := ends
  cases front with
  | nil => exact .inl (List.cons.inj split).2.symm
  | cons c front =>
      obtain rfl : front ++ '.' :: extension' = extension := (List.cons.inj split).2
      have dot : Text.byteLength ('.' :: extension') = 1 + Text.byteLength extension' := rfl
      rw [Text.byteLength_append]
      exact .inr (by omega)

section
variable (single : '/' ∉ extension)
include single

theorem matches_bare_suffix (front : List Char) (no_slash : '/' ∉ front) :
    (suffix extension).Matches (front ++ '.' :: extension) := by
  refine matches_suffix.mpr ?_
  rw [lastSegment_of_no_slash (by simp [single, no_slash])]
  exact List.suffix_append front _

theorem not_narrower_suffix_exact : ¬ (suffix extension).Narrower (exact declaration) := by
  intro narrower
  have bare := matches_exact.mp (narrower.within _ (matches_bare_suffix single [] (by simp)))
  have named := matches_exact.mp (narrower.within _ (matches_bare_suffix single ['.'] (by simp)))
  rw [← bare] at named
  exact absurd (List.append_left_eq_self.mp named) (by simp)

theorem not_narrower_suffix_template :
    ¬ (suffix extension).Narrower (template declaration segments) := by
  intro narrower
  obtain ⟨rest, split, -⟩ :=
    matches_template.mp (narrower.within _ (matches_bare_suffix single [] (by simp)))
  exact absurd (List.cons.inj split).1 (by decide)

theorem not_narrower_suffix_below (from_root : base = [] ∨ ∃ rest, base = '/' :: rest) :
    ¬ (suffix extension).Narrower (below base) := by
  intro narrower
  have split := matches_below.mp (narrower.within _ (matches_bare_suffix single [] (by simp)))
  rcases from_root with rfl | ⟨rest, rfl⟩
  · rcases split with empty | ⟨more, slash⟩
    · exact absurd empty (by simp)
    · exact absurd (List.cons.inj slash).1 (by decide)
  · rcases split with slash | ⟨more, slash⟩
    · exact absurd (List.cons.inj slash).1 (by decide)
    · exact absurd (List.cons.inj slash).1 (by decide)

theorem Narrower.suffix_suffix (narrower : (suffix extension).Narrower (suffix extension')) :
    Text.byteLength extension' < Text.byteLength extension := by
  have ends := matches_suffix.mp (narrower.within _ (matches_bare_suffix single [] (by simp)))
  rw [List.nil_append, lastSegment_of_no_slash (by simp [single])] at ends
  rcases suffix_shorter ends with rfl | shorter
  · obtain ⟨path, does, does_not⟩ := narrower.beyond
    exact absurd does does_not
  · exact shorter

end

theorem not_narrower_default : ¬ default.Narrower t := by
  rintro ⟨-, path, -, does_not⟩
  exact does_not matches_default

theorem not_narrower_exact_exact : ¬ (exact declaration).Narrower (exact declaration') := by
  intro narrower
  obtain ⟨path, does, does_not⟩ := narrower.beyond
  have same := matches_exact.mp (narrower.within declaration (matches_exact.mpr rfl))
  rw [same] at does_not
  exact does_not does

section
variable (declared : Declares declaration (template declaration segments))
include declared

theorem not_narrower_template_exact :
    ¬ (template declaration segments).Narrower (exact declaration') := by
  intro narrower
  have filled (word : List Char) (some_left : word ≠ []) (no_slash : '/' ∉ word) :=
    matches_exact.mp (narrower.within _ (matches_fill declared some_left no_slash))
  have same := (filled ['x'] (by simp) (by simp)).trans (filled ['y'] (by simp) (by simp)).symm
  have parts := congrArg (List.splitOn '/') (List.cons.inj same).2
  rw [splitOn_fill declared (by simp), splitOn_fill declared (by simp)] at parts
  have some_open : openSegments segments ≠ [] := by
    cases declared with
    | template _ some_open => exact some_open
  exact absurd (fill_inj some_open parts) (by decide)

theorem Narrower.template_template
    (narrower : (template declaration segments).Narrower (template declaration' segments')) :
    (segments'.filter Segment.isLiteral).length < (segments.filter Segment.isLiteral).length := by
  have filled (word : List Char) (some_left : word ≠ []) (no_slash : '/' ∉ word) :
      Taken (segments.map (Segment.fill word)) segments' := by
    obtain ⟨rest, split, taken⟩ := matches_template.mp
      (narrower.within _ (matches_fill declared some_left no_slash))
    rwa [← (List.cons.inj split).2, splitOn_fill declared no_slash] at taken
  have refines := refines_of_taken (by simp)
    (filled (List.replicate (fixedLength segments' + 1) 'x') (by simp) (by simp))
  refine Nat.lt_of_le_of_ne refines.literals fun equal => ?_
  obtain ⟨path, does, does_not⟩ := narrower.beyond
  obtain ⟨rest, rfl, taken⟩ := matches_template.mp does
  exact does_not (matches_template.mpr
    ⟨rest, rfl, taken.of_shape_eq (refines.shape_eq (Nat.le_of_eq equal.symm)).symm⟩)

end

theorem Narrower.priority {d d' : List Char} (hs : Declares d s) (ht : Declares d' t)
    (narrower : s.Narrower t) : s.priority t = .lt := by
  cases hs with
  | default => exact absurd narrower not_narrower_default
  | exact =>
      cases ht with
      | exact => exact absurd narrower not_narrower_exact_exact
      | default | suffix | below | template => exact priority_of_rank (by simp [group, Group.rank])
  | template spelling some_open once =>
      have declared := Declares.template spelling some_open once
      cases ht with
      | exact => exact absurd narrower (not_narrower_template_exact declared)
      | template => exact priority_of_specificity rfl (narrower.template_template declared)
      | default | suffix | below => exact priority_of_rank (by simp [group, Group.rank])
  | below =>
      cases ht with
      | exact => exact absurd narrower not_narrower_below_exact
      | template => exact absurd narrower not_narrower_below_template
      | below => exact priority_of_specificity rfl narrower.below_below
      | default | suffix => exact priority_of_rank (by simp [group, Group.rank])
  | suffix _ plain =>
      have single := fun slash => (plain '/' slash).1 rfl
      cases ht with
      | exact => exact absurd narrower (not_narrower_suffix_exact single)
      | template => exact absurd narrower (not_narrower_suffix_template single)
      | below from_root => exact absurd narrower (not_narrower_suffix_below single from_root)
      | suffix => exact priority_of_specificity rfl (narrower.suffix_suffix single)
      | default => exact priority_of_rank (by simp [group, Group.rank])

/-- Of two declared specs the one that matches less wins. So whatever is registered, a path never
goes to a spec when one that matches it matches less. -/
theorem narrower_spec_wins {α : Type} :
    (∀ s t : Spec, s.Declared → t.Declared → s.Narrower t → s.priority t = .lt)
      ∧ ∀ inserts : List (Spec × α), (∀ e ∈ inserts, e.1.Declared) → ∀ path v m,
        (({} : Table α).putAll inserts).resolve path = some (v, m) →
          ∃ s, inserts.lookup s = some v ∧ s.matchPath path = some m
            ∧ ∀ e ∈ inserts, e.1.Matches path → ¬ e.1.Narrower s := by
  have first (s t : Spec) (hs : s.Declared) (ht : t.Declared) (narrower : s.Narrower t) :
      s.priority t = .lt := by
    obtain ⟨d, parsed⟩ := hs
    obtain ⟨d', parsed'⟩ := ht
    exact narrower.priority (declares_of_parse parsed) (declares_of_parse parsed')
  refine ⟨first, ?_⟩
  intro inserts declared path v m found
  have resolved := Table.resolve_of_empty declared path
  rw [found] at resolved
  obtain ⟨s, value, matched, wins⟩ := resolved
  refine ⟨s, value, matched, ?_⟩
  intro e among does narrower
  have known : s.Declared := by
    obtain ⟨before, after, rfl, -⟩ := List.lookup_eq_some_iff.mp value
    exact declared (s, v) (by simp)
  have before := first e.1 s (declared e among) known narrower
  rcases wins e among does with same | after
  · rw [same] at before
    exact priority_irrefl s before
  · exact priority_asymm before after

/-- What is below `/a/b` is below `/a` too. -/
theorem narrower_spec_wins_deeper : let outer : Spec := .below ['/', 'a'];
    let inner : Spec := .below ['/', 'a', '/', 'b']; let path := ['/', 'a', '/', 'b', '/', 'c'];
    (outer.Declared ∧ inner.Declared ∧ inner.Narrower outer) ∧ inner.priority outer = .lt
      ∧ ∃ m, (({} : Table Nat).putAll [(outer, 1), (inner, 2)]).resolve path = some (2, m)
        ∧ ∀ e ∈ [(outer, 1), (inner, 2)], e.1.Matches path → ¬ e.1.Narrower inner := by
  intro outer inner path
  have outer_declared : outer.Declared := ⟨['/', 'a', '/', '*'], rfl⟩
  have inner_declared : inner.Declared := ⟨['/', 'a', '/', 'b', '/', '*'], rfl⟩
  have narrower : inner.Narrower outer := by
    refine ⟨?_, ['/', 'a'], by decide, by decide⟩
    intro path does
    rcases matches_below.mp does with rfl | ⟨rest, rfl⟩
    · exact matches_below.mpr (.inr ⟨['b'], rfl⟩)
    · exact matches_below.mpr (.inr ⟨'b' :: '/' :: rest, rfl⟩)
  have all := @narrower_spec_wins Nat
  have found : (({} : Table Nat).putAll [(outer, 1), (inner, 2)]).resolve path
      = some (2, ⟨inner, path, ['/', 'a', '/', 'b'], some ['/', 'c'], []⟩) := by decide
  have declared : ∀ e ∈ [(outer, 1), (inner, 2)], e.1.Declared := by
    intro e among
    rcases (by simpa using among : e = (outer, 1) ∨ e = (inner, 2)) with rfl | rfl
    · exact outer_declared
    · exact inner_declared
  obtain ⟨s, value, -, wins⟩ := all.2 _ declared path 2 _ found
  obtain rfl : inner = s := by
    obtain ⟨before, after, split, -⟩ := List.lookup_eq_some_iff.mp value
    have among : (s, 2) ∈ [(outer, 1), (inner, 2)] := by rw [split]; simp
    simpa [eq_comm] using among
  exact ⟨⟨outer_declared, inner_declared, narrower⟩,
    all.1 inner outer inner_declared outer_declared narrower, _, found, wins⟩

end Spec
end Gateway.Path
