import Gateway.Proofs.Path.Language
import Mathlib.Algebra.Order.BigOperators.Group.List
import Mathlib.Algebra.Order.Group.Nat

/-!
Which entries of a table are ever used. Every spec has a path that no spec before it takes, apart
from a template that differs from it in the names of its variables; so these are the only specs that
match alike, and only such a template can hide an entry for good: `reachable_unless_renamed`.
-/
namespace Gateway.Path

theorem length_splitOn (separator : Char) (text : List Char) :
    (text.splitOn separator).length = text.count separator + 1 := by
  induction text with
  | nil => rw [List.splitOn_nil, List.length_singleton, List.count_nil]
  | cons c rest ih =>
      rw [List.splitOn_cons_eq_if_modifyHead, List.count_cons]
      by_cases here : c = separator
      · rw [if_pos (beq_iff_eq.mpr here), if_pos (beq_iff_eq.mpr here), List.length_cons, ih]
      · rw [if_neg (mt beq_iff_eq.mp here), if_neg (mt beq_iff_eq.mp here),
          List.length_modifyHead, ih, Nat.add_zero]

theorem length_le_intercalate {part : List Char} {parts : List (List Char)} (separator : List Char)
    (among : part ∈ parts) : part.length ≤ (separator.intercalate parts).length := by
  induction parts with
  | nil => exact absurd among List.not_mem_nil
  | cons first parts ih =>
      cases parts with
      | nil =>
          rw [List.mem_singleton.mp among, List.intercalate_singleton]
      | cons second parts =>
          rw [List.intercalate_cons_cons, List.length_append, List.length_append]
          rcases List.mem_cons.mp among with rfl | among
          · omega
          · have later := ih among
            omega

namespace Spec

/-- The templates differ in nothing but the names of their variables. -/
inductive Renamed : Spec → Spec → Prop
  | intro {declaration declaration' : List Char} {segments segments' : List Segment} :
      segments.map Segment.shape = segments'.map Segment.shape →
      Renamed (.template declaration segments) (.template declaration' segments')

/-- The length of a spec's text; for a template, of its fixed text and of its segments. -/
def extent : Spec → Nat
  | .exact text | .below text => text.length
  | .template _ segments => segments.length + fixedLength segments
  | .suffix _ | .default => 0

/-- A path of a spec for which few others are meant. A base goes on with a long word, which no
longer base can end in, and with many slashes, more than a template has; a template is filled in
with a long word. -/
def ownPath (n : Nat) : Spec → List Char
  | .exact path => path
  | .below base => base ++ '/' :: (List.replicate n 'x' ++ List.replicate n '/')
  | .suffix extension => '.' :: extension
  | .template _ segments =>
    '/' :: ['/'].intercalate (segments.map (Segment.fill (List.replicate n 'x')))
  | .default => ['x']

variable {s t : Spec} {d d' path rest base base' extension declaration declaration' : List Char}
  {segments : List Segment} {n : Nat} {c : Char}

theorem Renamed.symm (renamed : s.Renamed t) : t.Renamed s := by
  cases renamed with
  | intro same => exact .intro same.symm

theorem Renamed.matches (renamed : s.Renamed t) (does : s.Matches path) : t.Matches path := by
  cases renamed with
  | intro same =>
      obtain ⟨rest, rooted, taken⟩ := matches_template.mp does
      exact matches_template.mpr ⟨rest, rooted, taken.of_shape_eq same⟩

/-! ### What winning says -/

theorem rank_le_of_priority (wins : t.priority s = .lt) : t.group.rank ≤ s.group.rank := by
  by_contra later
  exact priority_asymm wins (priority_of_rank (Nat.lt_of_not_le later))

theorem specificity_le_of_priority (wins : t.priority s = .lt)
    (group : s.group.rank = t.group.rank) : s.specificity ≤ t.specificity := by
  by_contra less
  exact priority_asymm wins (priority_of_specificity group (Nat.lt_of_not_le less))

/-! ### The path that is a spec's own -/

theorem long_word (some_left : 0 < n) : IsWord (List.replicate n 'x') := by
  refine ⟨by simp [Nat.ne_of_gt some_left], ?_⟩
  intro slash
  exact absurd (List.eq_of_mem_replicate slash) (by decide)

theorem matches_ownPath (declares : Declares d s) (some_left : 0 < n) :
    s.Matches (s.ownPath n) := by
  cases declares with
  | default => exact matches_default
  | exact => exact matches_exact.mpr rfl
  | below => exact matches_below.mpr (.inr ⟨_, rfl⟩)
  | suffix _ plain => exact matches_bare_suffix (fun slash => (plain '/' slash).1 rfl) [] (by simp)
  | template spelling some_open once =>
      obtain ⟨nonempty, single⟩ := long_word some_left
      exact matches_fill (.template spelling some_open once) nonempty single

theorem le_length_ownPath (declares : Declares declaration (template declaration segments)) :
    n ≤ ((template declaration segments).ownPath n).length := by
  cases declares with
  | template spelling some_open once =>
      obtain ⟨name, others, named⟩ := List.exists_cons_of_ne_nil some_open
      have among : name ∈ openSegments segments := by simp [named]
      obtain ⟨within, is_open⟩ := List.mem_filter.mp among
      have filled : name.fill (List.replicate n 'x') = List.replicate n 'x' := by
        cases name with
        | literal text => exact absurd is_open (by simp [Segment.isLiteral])
        | variableName name => rfl
      have part := length_le_intercalate ['/'] (List.mem_map.mpr ⟨name, within, filled⟩)
      rw [List.length_replicate] at part
      exact Nat.le_succ_of_le part

theorem lt_length_ownPath_below (base : List Char) (n : Nat) :
    n < ((below base).ownPath n).length := by
  simp only [ownPath, List.length_append, List.length_cons, List.length_replicate]
  omega

theorem unrooted_of_matches (declares : Declares d t) (does : t.Matches (c :: rest))
    (unrooted : c ≠ '/') : (∃ extension, t = suffix extension) ∨ t = default := by
  cases declares with
  | suffix => exact .inl ⟨_, rfl⟩
  | default => exact .inr rfl
  | exact => exact absurd (List.cons.inj (matches_exact.mp does)).1 unrooted
  | template =>
      obtain ⟨more, split, -⟩ := matches_template.mp does
      exact absurd (List.cons.inj split).1 unrooted
  | below rooted =>
      rcases rooted with rfl | ⟨more, rfl⟩
      · rcases matches_below.mp does with bare | ⟨more, split⟩
        · exact absurd bare (List.cons_ne_nil _ _)
        · exact absurd (List.cons.inj split).1 unrooted
      · rcases matches_below.mp does with split | ⟨more, split⟩
        · exact absurd (List.cons.inj split).1 unrooted
        · exact absurd (List.cons.inj split).1 unrooted

theorem not_matches_ownPath_below (short : segments.length < n) :
    ¬ (template declaration segments).Matches ((below base).ownPath n) := by
  intro does
  obtain ⟨rest, rooted, taken⟩ := matches_template.mp does
  have slashes := congrArg (List.count '/') rooted
  have parts := taken.length_eq
  rw [length_splitOn] at parts
  rw [ownPath, List.count_append, List.count_cons_self, List.count_append,
    List.count_replicate_self, List.count_cons_self] at slashes
  omega

theorem below_of_matches_ownPath (short : base'.length < n)
    (does : (below base').Matches ((below base).ownPath n)) :
    base' <+: base := by
  have inside (more : List Char) (fewer : more.length < n) (rest : List Char) :
      List.replicate n 'x' ++ List.replicate n '/' ≠ more ++ '/' :: rest := by
    intro split
    rcases List.append_eq_append_iff.mp split with ⟨beyond, rfl, -⟩ | ⟨beyond, word, slash⟩
    · rw [List.length_append, List.length_replicate] at fewer
      omega
    · cases beyond with
      | nil =>
          have length := congrArg List.length word
          rw [List.append_nil, List.length_replicate] at length
          omega
      | cons c beyond =>
          have among : c ∈ List.replicate n 'x' := by simp [word]
          rw [← (List.cons.inj slash).1] at among
          exact absurd (List.eq_of_mem_replicate among) (by decide)
  rcases matches_below.mp does with whole | ⟨rest, split⟩
  · have longer := lt_length_ownPath_below base n
    rw [whole] at longer
    exact absurd longer (Nat.lt_asymm short)
  · rcases List.append_eq_append_iff.mp split with ⟨more, longer, behind⟩ | ⟨more, shorter, -⟩
    · cases more with
      | nil => exact ⟨[], by simp [longer]⟩
      | cons c more =>
          refine absurd (List.cons.inj behind).2 (inside more ?_ rest)
          have length := congrArg List.length longer
          rw [List.length_append, List.length_cons] at length
          omega
    · exact ⟨more, shorter.symm⟩

theorem renamed_of_matches_template
    (declared : Declares declaration (template declaration segments)) (declares : Declares d t)
    (short : t.extent < n) (wins : t.priority (template declaration segments) = .lt)
    (does : t.Matches ((template declaration segments).ownPath n)) :
    t.Renamed (template declaration segments) := by
  have rank := rank_le_of_priority wins
  cases declares with
  | default | suffix | below => exact absurd rank (by simp [group, Group.rank])
  | exact =>
      have filled := le_length_ownPath declared (n := n)
      rw [matches_exact.mp does] at filled
      exact absurd short (Nat.not_lt.mpr filled)
  | @template _ segments' =>
      obtain ⟨rest, rooted, taken⟩ := matches_template.mp does
      obtain rfl := (List.cons.inj rooted).2
      obtain ⟨-, single⟩ := long_word (Nat.zero_lt_of_lt short)
      rw [splitOn_fill declared single] at taken
      have refines : Refines segments segments' := by
        refine refines_of_taken ?_ taken
        rw [List.length_replicate]
        exact Nat.lt_of_le_of_lt (Nat.le_add_left _ _) short
      exact .intro (refines.shape_eq (specificity_le_of_priority wins rfl)).symm

/-- No spec that wins takes the path, but for a template under other names. -/
theorem renamed_of_matches_ownPath (hs : Declares d s) (ht : Declares d' t) (short : t.extent < n)
    (wins : t.priority s = .lt) (does : t.Matches (s.ownPath n)) : t.Renamed s := by
  have rank := rank_le_of_priority wins
  -- A winner's group is no later than that of `s`, which leaves few pairs of forms.
  cases hs with
  | template spelling some_open once =>
      exact renamed_of_matches_template (.template spelling some_open once) ht short wins does
  | exact =>
      cases ht with
      | default | suffix | below | template => exact absurd rank (by simp [group, Group.rank])
      | exact =>
          rw [← matches_exact.mp does] at wins
          exact absurd wins (priority_irrefl _)
  | @below base =>
      cases ht with
      | default | suffix => exact absurd rank (by simp [group, Group.rank])
      | exact =>
          have longer := lt_length_ownPath_below base n
          rw [matches_exact.mp does] at longer
          exact absurd longer (Nat.lt_asymm short)
      | template =>
          have fewer := Nat.lt_of_le_of_lt (Nat.le_add_right _ _) short
          exact absurd does (not_matches_ownPath_below fewer)
      | @below base' =>
          obtain ⟨more, rfl⟩ := below_of_matches_ownPath short does
          have bytes := specificity_le_of_priority wins rfl
          rw [specificity, specificity, Text.byteLength_append] at bytes
          cases more with
          | nil =>
              rw [List.append_nil] at wins
              exact absurd wins (priority_irrefl _)
          | cons c more =>
              have positive : 0 < c.utf8Size := Char.utf8Size_pos c
              have length : Text.byteLength (c :: more) = c.utf8Size + Text.byteLength more := rfl
              omega
  | @suffix extension _ plain =>
      rcases unrooted_of_matches ht does (by decide) with ⟨extension', rfl⟩ | rfl
      · have single : '/' ∉ '.' :: extension := by
          simpa using fun slash => (plain '/' slash).1 rfl
        have ends := matches_suffix.mp does
        rw [ownPath, lastSegment_of_no_slash single] at ends
        rcases suffix_shorter ends with rfl | shorter
        · exact absurd wins (priority_irrefl _)
        · exact absurd (specificity_le_of_priority wins rfl) (Nat.not_le.mpr shorter)
      · exact absurd rank (by simp [group, Group.rank])
  | default =>
      rcases unrooted_of_matches ht does (by decide) with ⟨extension, rfl⟩ | rfl
      · cases ht with
        | suffix some_left =>
            have length := (matches_suffix.mp does).length_le
            have one : (lastSegment ['x']).length = 1 := by decide
            rw [ownPath, one, List.length_cons] at length
            exact absurd (List.length_pos_of_ne_nil some_left) (by omega)
      · exact absurd wins (priority_irrefl _)

/-! ### Tables -/

/-- Declared specs that differ match alike just when they are templates under other names. -/
theorem matches_alike_iff (hs : Declares d s) (ht : Declares d' t) :
    (∀ path, s.Matches path ↔ t.Matches path) ↔ s = t ∨ s.Renamed t := by
  constructor
  · intro alike
    by_cases same : s = t
    · exact .inl same
    have known {d : List Char} {s : Spec} (declares : Declares d s) : s.Declared :=
      ⟨s.display, parse_display declares⟩
    rcases (known hs).lt_or_gt (known ht) same with first | second
    · have own := matches_ownPath ht (Nat.zero_lt_succ s.extent)
      exact .inr (renamed_of_matches_ownPath ht hs (Nat.lt_succ_self _) first ((alike _).mpr own))
    · have own := matches_ownPath hs (Nat.zero_lt_succ t.extent)
      have renamed :=
        renamed_of_matches_ownPath hs ht (Nat.lt_succ_self _) second ((alike _).mp own)
      exact .inr renamed.symm
  · rintro (rfl | renamed) path
    · exact Iff.rfl
    · exact ⟨renamed.matches, renamed.symm.matches⟩

end Spec

namespace Table
variable {α : Type} {t : Table α} {s : Spec} {v : α} {n : Nat}

theorem resolve_cons (s : Spec) (v : α) (entries : List (Spec × α)) (path : List Char) :
    resolve ⟨(s, v) :: entries⟩ path
      = ((s.matchPath path).map fun m => (v, m)).or (resolve ⟨entries⟩ path) := by
  rw [resolve, List.findSome?_cons]
  dsimp only
  cases s.matchPath path with
  | none | some m => rfl

theorem exists_extent_lt (t : Table α) : ∃ n, ∀ e ∈ t.entries, e.1.extent < n := by
  refine ⟨(t.entries.map fun e => e.1.extent).sum + 1, fun e among => ?_⟩
  exact Nat.lt_succ_of_le (List.le_sum_of_mem (List.mem_map.mpr ⟨e, among, rfl⟩))

/-- The path that is a spec's own goes to it, or to a template under other names before it. -/
theorem Ordered.resolve_ownPath (ordered : t.Ordered) (entry : (s, v) ∈ t.entries)
    (short : ∀ e ∈ t.entries, e.1.extent < n)
    (alone : ∀ e ∈ t.entries, e.1.Renamed s → e.1.priority s ≠ .lt) :
    ∃ m, t.resolve (s.ownPath n) = some (v, m) ∧ m.spec = s := by
  obtain ⟨d, parsed⟩ := ordered.declared _ entry
  have own := Spec.matches_ownPath (declares_of_parse parsed) (Nat.zero_lt_of_lt (short _ entry))
  cases found : t.resolve (s.ownPath n) with
  | none =>
      rw [Spec.Matches, resolve_eq_none found _ entry] at own
      exact absurd own (by simp)
  | some hit =>
      obtain ⟨w, m⟩ := hit
      obtain ⟨s', value, matched, first⟩ := ordered.resolve_eq_some found
      have entry' : (s', w) ∈ t.entries := ordered.mem_iff.mpr value
      rcases first _ entry own with rfl | before
      · rw [ordered.value_unique entry entry']
        exact ⟨m, rfl, (Spec.matchPath_parts matched).1⟩
      · obtain ⟨d', parsed'⟩ := ordered.declared _ entry'
        have does : s'.Matches (s.ownPath n) := by rw [Spec.Matches, matched]; rfl
        have renamed := Spec.renamed_of_matches_ownPath (declares_of_parse parsed)
          (declares_of_parse parsed') (short _ entry') before does
        exact absurd before (alone _ entry' renamed)

theorem Ordered.not_lt_of_resolve (ordered : t.Ordered) {path : List Char} {m : Match}
    (found : t.resolve path = some (v, m)) {e : Spec × α} (among : e ∈ t.entries)
    (renamed : e.1.Renamed m.spec) : e.1.priority m.spec ≠ .lt := by
  intro before
  obtain ⟨s', -, matched, first⟩ := ordered.resolve_eq_some found
  rw [(Spec.matchPath_parts matched).1] at renamed before
  have does : s'.Matches path := by rw [Spec.Matches, matched]; rfl
  rcases first e among (renamed.symm.matches does) with same | after
  · rw [same] at before
    exact Spec.priority_irrefl s' before
  · exact Spec.priority_asymm before after

/-- An entry of a table of declared specs is reached by some path just when no template under other
names stands before it. Such a pair is not refused: a registration fails only for a spec that has a
value, while specs match the same paths when they are the same or such a pair, and never else. -/
theorem reachable_unless_renamed {inserts : List (Spec × α)}
    (declared : ∀ e ∈ inserts, e.1.Declared) : let table := ({} : Table α).putAll inserts;
    (∀ s v, (s, v) ∈ table.entries → ((∃ path m, table.resolve path = some (v, m) ∧ m.spec = s)
        ↔ ∀ e ∈ table.entries, e.1.Renamed s → e.1.priority s ≠ .lt))
      ∧ (∀ s v, table.insert? s v = none ↔ ∃ w, (s, w) ∈ table.entries)
      ∧ ∀ s t : Spec, s.Declared → t.Declared →
        ((∀ path, s.Matches path ↔ t.Matches path) ↔ s = t ∨ s.Renamed t) := by
  intro table
  have ordered : table.Ordered := ordered_empty.putAll declared
  refine ⟨fun s v entry => ⟨?_, ?_⟩, fun s v => insert?_eq_none_iff, ?_⟩
  · rintro ⟨path, m, found, rfl⟩ e among
    exact ordered.not_lt_of_resolve found among
  · intro alone
    obtain ⟨n, short⟩ := table.exists_extent_lt
    exact ⟨_, ordered.resolve_ownPath entry short alone⟩
  · rintro s t ⟨d, parsed⟩ ⟨d', parsed'⟩
    exact Spec.matches_alike_iff (declares_of_parse parsed) (declares_of_parse parsed')

/-- Of templates with one variable each, the one whose name comes first takes every path. -/
theorem reachable_unless_renamed_for_names :
    let first : Spec := .template "/{id}".toList [.variableName "id".toList]
    let second : Spec := .template "/{name}".toList [.variableName "name".toList]
    let rest : Spec := .below []
    let table := ({} : Table Nat).putAll [(second, 2), (rest, 3), (first, 1)]
    (∀ e ∈ [(second, 2), (rest, 3), (first, 1)], e.1.Declared)
      ∧ (∃ path m, table.resolve path = some (1, m) ∧ m.spec = first)
      ∧ (¬ ∃ path m, table.resolve path = some (2, m) ∧ m.spec = second)
      ∧ ∃ path m, table.resolve path = some (3, m) ∧ m.spec = rest := by
  intro first second rest table
  have declared : ∀ e ∈ [(second, 2), (rest, 3), (first, 1)], e.1.Declared := by
    simp only [List.forall_mem_cons, List.not_mem_nil, false_imp_iff, implies_true, and_true]
    exact ⟨⟨"/{name}".toList, rfl⟩, ⟨"/*".toList, rfl⟩, ⟨"/{id}".toList, rfl⟩⟩
  obtain ⟨reached, -, -⟩ := reachable_unless_renamed declared
  have entries : table.entries = [(first, 1), (second, 2), (rest, 3)] := by decide
  have entry (e : Spec × Nat) (among : e ∈ [(first, 1), (second, 2), (rest, 3)]) :
      (e.1, e.2) ∈ table.entries := by rwa [entries]
  refine ⟨declared, ?_, ?_, ?_⟩
  · refine (reached _ _ (entry (first, 1) (by simp))).mpr ?_
    have none_before : ∀ e ∈ [(first, 1), (second, 2), (rest, 3)], e.1.priority first ≠ .lt := by
      decide
    rw [entries]
    exact fun e among _ => none_before e among
  · intro found
    have behind := (reached _ _ (entry (second, 2) (by simp))).mp found
    have renamed : first.Renamed second := .intro (by simp [Segment.shape])
    exact behind (first, 1) (entry (first, 1) (by simp)) renamed (by decide)
  · refine (reached _ _ (entry (rest, 3) (by simp))).mpr ?_
    rintro ⟨key, value⟩ - ⟨⟩

/-- Both templates are registered, and match the same paths, so the second is never used. -/
theorem renamed_template_unreachable :
    let first : Spec := .template "/{a}".toList [.variableName "a".toList]
    let second : Spec := .template "/{b}".toList [.variableName "b".toList]
    Spec.parse "/{a}".toList = .ok first ∧ Spec.parse "/{b}".toList = .ok second
      ∧ ∃ table, (({} : Table Nat).insert? first 1).bind (·.insert? second 2) = some table
        ∧ (second, 2) ∈ table.entries ∧ (∀ path, second.Matches path ↔ first.Matches path)
        ∧ ∀ path m, table.resolve path ≠ some (2, m) := by
  intro first second
  have renamed : second.Renamed first := .intro (by simp [Segment.shape])
  have alike (path : List Char) : second.Matches path ↔ first.Matches path :=
    ⟨renamed.matches, renamed.symm.matches⟩
  refine ⟨rfl, rfl, ⟨[(first, 1), (second, 2)]⟩, rfl, by simp, alike, ?_⟩
  intro path m found
  rw [resolve_cons, resolve_cons] at found
  cases matched : first.matchPath path with
  | some m' =>
      rw [matched] at found
      exact absurd (Prod.mk.inj (Option.some.inj found)).1 (by decide)
  | none =>
      have missed : second.matchPath path = none := by
        rw [← Option.not_isSome_iff_eq_none]
        exact fun does => absurd ((alike path).mp does) (by rw [Spec.Matches, matched]; decide)
      rw [matched, missed] at found
      exact absurd found (by simp [resolve])

end Table
end Gateway.Path
