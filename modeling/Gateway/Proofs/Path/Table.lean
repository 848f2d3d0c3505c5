import Gateway.Proofs.Path.Precedence
import Gateway.Proofs.Utf8.Encoding

/-!
Tables of path specs. A table that is filled by registrations alone keeps its entries in strict
order of precedence, holds for every spec the value that was registered first, and so finds the
winning entry first. The order of registrations leaves no trace.
-/
namespace Gateway.Path

namespace Table
variable {α : Type} {t t' : Table α} {s : Spec} {v : α}

/-- What a registration leaves behind; a refused one leaves the table as it is. -/
def put (t : Table α) (s : Spec) (v : α) : Table α := (t.insert? s v).getD t

def putAll (t : Table α) : List (Spec × α) → Table α
  | [] => t
  | (s, v) :: rest => (t.put s v).putAll rest

/-! ### Looking up a spec -/

theorem get?_eq_none_iff : t.get? s = none ↔ ∀ e ∈ t.entries, e.1 ≠ s := by
  rw [get?, List.findSome?_eq_none_iff]
  simp

theorem mem_of_get? (found : t.get? s = some v) : (s, v) ∈ t.entries := by
  obtain ⟨⟨key, value⟩, among, same⟩ := List.exists_of_findSome?_eq_some found
  dsimp only at same
  by_cases own : key = s
  · rw [if_pos own] at same
    rwa [← own, ← Option.some.inj same]
  · rw [if_neg own] at same
    exact absurd same (by simp)

theorem get?_place (s s' : Spec) (v : α) (entries : List (Spec × α))
    (fresh : ∀ e ∈ entries, e.1 ≠ s) : get? ⟨place s v entries⟩ s'
      = (get? ⟨entries⟩ s').or (if s = s' then some v else none) := by
  simp only [get?]
  induction entries with
  | nil => simp [place]
  | cons e rest ih =>
      obtain ⟨key, value⟩ := e
      have differ : key ≠ s := fresh _ List.mem_cons_self
      have later := ih fun e he => fresh e (List.mem_cons_of_mem _ he)
      by_cases wins : key.priority s = .lt
      · rw [place, if_pos wins, List.findSome?_cons, List.findSome?_cons, later]
        by_cases found : key = s'
        · simp [found]
        · simp [found]
      · rw [place, if_neg wins]
        by_cases same : s = s'
        · subst same
          have absent := get?_eq_none_iff.mpr fun e he => fresh e (List.mem_cons_of_mem _ he)
          rw [get?] at absent
          simp [differ, absent]
        · simp [same]

theorem insert?_of_present {w : α} (present : t.get? s = some w) :
    t.insert? s v = none ∧ t.put s v = t := by
  have refused : t.insert? s v = none := by rw [insert?, present]
  exact ⟨refused, by rw [put, refused]; rfl⟩

theorem insert?_of_absent (absent : t.get? s = none) :
    t.insert? s v = some ⟨place s v t.entries⟩ ∧ t.put s v = ⟨place s v t.entries⟩ := by
  have taken : t.insert? s v = some ⟨place s v t.entries⟩ := by rw [insert?, absent]
  exact ⟨taken, by rw [put, taken]; rfl⟩

theorem insert?_eq_none_iff : t.insert? s v = none ↔ ∃ w, (s, w) ∈ t.entries := by
  cases value : t.get? s with
  | none =>
      rw [(insert?_of_absent value).1]
      refine ⟨fun refused => absurd refused (by simp), ?_⟩
      rintro ⟨w, entry⟩
      exact absurd rfl (get?_eq_none_iff.mp value _ entry)
  | some w => exact ⟨fun _ => ⟨w, mem_of_get? value⟩, fun _ => (insert?_of_present value).1⟩

/-- The value of a spec is the one it was registered with first. -/
theorem get?_put (t : Table α) (s s' : Spec) (v : α) :
    (t.put s v).get? s' = (t.get? s').or (if s = s' then some v else none) := by
  cases found : t.get? s with
  | none =>
      rw [(insert?_of_absent found).2]
      exact get?_place s s' v t.entries (get?_eq_none_iff.mp found)
  | some w =>
      rw [(insert?_of_present found).2]
      by_cases same : s = s'
      · rw [← same, found]
        rfl
      · rw [if_neg same, Option.or_none]

theorem get?_putAll (t : Table α) (inserts : List (Spec × α)) (s : Spec) :
    (t.putAll inserts).get? s = (t.get? s).or (inserts.lookup s) := by
  induction inserts generalizing t with
  | nil => rw [putAll, List.lookup_nil, Option.or_none]
  | cons e rest ih =>
      obtain ⟨key, value⟩ := e
      rw [putAll, ih, get?_put, Option.or_assoc, List.lookup_cons]
      by_cases same : key = s
      · simp [same]
      · simp [same, beq_eq_false_iff_ne.mpr (Ne.symm same)]

/-! ### Order -/

/-- The entries are those of declared specs, in strict order of precedence. -/
structure Ordered (t : Table α) : Prop where
  declared : ∀ e ∈ t.entries, e.1.Declared
  sorted : t.entries.Pairwise fun a b => a.1.priority b.1 = .lt

theorem ordered_empty : Ordered ({} : Table α) :=
  ⟨fun _ he => absurd he List.not_mem_nil, .nil⟩

theorem Ordered.place_between (ordered : t.Ordered) (declared : s.Declared) (v : α)
    (absent : t.get? s = none) : ∃ before after, t.entries = before ++ after
      ∧ place s v t.entries = before ++ (s, v) :: after
      ∧ (∀ e ∈ before, e.1.priority s = .lt) ∧ ∀ e ∈ after, s.priority e.1 = .lt := by
  obtain ⟨entries⟩ := t
  obtain ⟨all_declared, sorted⟩ := ordered
  have fresh := get?_eq_none_iff.mp absent
  dsimp only at all_declared sorted fresh ⊢
  clear absent
  induction entries with
  | nil => exact ⟨[], [], rfl, rfl, nofun, nofun⟩
  | cons e rest ih =>
      obtain ⟨first, later⟩ := List.pairwise_cons.mp sorted
      by_cases wins : e.1.priority s = .lt
      · obtain ⟨before, after, split, placed, above, below⟩ :=
          ih (fun e he => all_declared e (List.mem_cons_of_mem _ he)) later
            fun e he => fresh e (List.mem_cons_of_mem _ he)
        refine ⟨e :: before, after, by rw [split]; rfl, ?_, ?_, below⟩
        · rw [place, if_pos wins, placed]
          rfl
        · intro e' he'
          rcases List.mem_cons.mp he' with rfl | he'
          · exact wins
          · exact above e' he'
      · have won : s.priority e.1 = .lt :=
          ((all_declared e List.mem_cons_self).lt_or_gt declared
            (fresh e List.mem_cons_self)).resolve_left wins
        refine ⟨[], e :: rest, rfl, by rw [place, if_neg wins]; rfl, nofun, ?_⟩
        intro e' he'
        rcases List.mem_cons.mp he' with rfl | he'
        · exact won
        · exact Std.TransCmp.lt_trans won (first e' he')

theorem Ordered.put (ordered : t.Ordered) (declared : s.Declared) (v : α) :
    (t.put s v).Ordered := by
  cases found : t.get? s with
  | some w =>
      rw [(insert?_of_present found).2]
      exact ordered
  | none =>
      obtain ⟨before, after, split, placed, above, below⟩ :=
        ordered.place_between declared v found
      have all_declared := ordered.declared
      have sorted := ordered.sorted
      rw [split] at all_declared sorted
      obtain ⟨front, back, across⟩ := List.pairwise_append.mp sorted
      rw [(insert?_of_absent found).2, placed]
      refine ⟨?_, List.pairwise_append.mpr ⟨front, List.pairwise_cons.mpr ⟨below, back⟩, ?_⟩⟩
      · intro e he
        rcases List.mem_append.mp he with he | he
        · exact all_declared e (List.mem_append_left _ he)
        · rcases List.mem_cons.mp he with rfl | he
          · exact declared
          · exact all_declared e (List.mem_append_right _ he)
      · intro a ha b hb
        rcases List.mem_cons.mp hb with rfl | hb
        · exact above a ha
        · exact across a ha b hb

theorem Ordered.putAll (ordered : t.Ordered) {inserts : List (Spec × α)}
    (declared : ∀ e ∈ inserts, e.1.Declared) : (t.putAll inserts).Ordered := by
  induction inserts generalizing t with
  | nil => exact ordered
  | cons e rest ih =>
      exact ih (ordered.put (declared e List.mem_cons_self) e.2)
        fun e he => declared e (List.mem_cons_of_mem _ he)

theorem Ordered.nodup_keys (ordered : t.Ordered) : (t.entries.map Prod.fst).Nodup := by
  rw [List.Nodup, List.pairwise_map]
  refine ordered.sorted.imp ?_
  intro a b wins same
  rw [same] at wins
  exact Spec.priority_irrefl b.1 wins

/-- A registration is refused just when the spec has a value. One that is not puts its entry behind
those that win over it and before those it wins over. -/
theorem Ordered.insert?_cases (ordered : t.Ordered) (declared : s.Declared) (v : α) :
    match t.insert? s v with
    | none => t.get? s ≠ none ∧ t.put s v = t
    | some t' => t.get? s = none ∧ t.put s v = t' ∧ ∃ before after, t.entries = before ++ after
        ∧ t'.entries = before ++ (s, v) :: after
        ∧ (∀ e ∈ before, e.1.priority s = .lt) ∧ ∀ e ∈ after, s.priority e.1 = .lt := by
  cases found : t.get? s with
  | some w =>
      obtain ⟨refused, left⟩ := insert?_of_present found (v := v)
      rw [refused]
      exact ⟨nofun, left⟩
  | none =>
      obtain ⟨taken, made⟩ := insert?_of_absent found (v := v)
      rw [taken]
      obtain ⟨before, after, split, placed, above, below⟩ := ordered.place_between declared v found
      exact ⟨rfl, made, before, after, split, placed, above, below⟩

theorem Ordered.value_unique (ordered : t.Ordered) {w : α} (first : (s, v) ∈ t.entries)
    (second : (s, w) ∈ t.entries) : v = w := by
  obtain ⟨before, after, split⟩ := List.append_of_mem first
  have sorted := ordered.sorted
  rw [split] at sorted second
  obtain ⟨-, back, across⟩ := List.pairwise_append.mp sorted
  rcases List.mem_append.mp second with earlier | here
  · exact absurd (across _ earlier _ List.mem_cons_self) (Spec.priority_irrefl s)
  · rcases List.mem_cons.mp here with same | later
    · exact (Prod.mk.inj same).2.symm
    · exact absurd ((List.pairwise_cons.mp back).1 _ later) (Spec.priority_irrefl s)

theorem Ordered.mem_iff (ordered : t.Ordered) : (s, v) ∈ t.entries ↔ t.get? s = some v := by
  refine ⟨?_, mem_of_get?⟩
  intro among
  cases found : t.get? s with
  | none => exact absurd rfl (get?_eq_none_iff.mp found _ among)
  | some w => rw [ordered.value_unique among (mem_of_get? found)]

/-- Tables in order that hold the same values are the same. -/
theorem Ordered.eq_of_get? (ordered : t.Ordered) (ordered' : t'.Ordered)
    (same : ∀ s, t.get? s = t'.get? s) : t = t' := by
  have distinct {t : Table α} (ordered : t.Ordered) : t.entries.Nodup := by
    refine ordered.sorted.imp ?_
    intro a b wins same
    rw [same] at wins
    exact Spec.priority_irrefl b.1 wins
  have entries : t.entries = t'.entries := by
    refine List.Perm.eq_of_pairwise ?_ ordered.sorted ordered'.sorted ?_
    · intro a b _ _ first second
      exact absurd second (Spec.priority_asymm first)
    · refine (List.perm_ext_iff_of_nodup (distinct ordered) (distinct ordered')).mpr ?_
      intro e
      rw [ordered.mem_iff, ordered'.mem_iff, same]
  obtain ⟨list⟩ := t
  exact congrArg Table.mk entries

/-! ### Matching -/

theorem Ordered.resolve_eq_some (ordered : t.Ordered) {path : List Char} {m : Match}
    (found : t.resolve path = some (v, m)) : ∃ s, t.get? s = some v ∧ s.matchPath path = some m
      ∧ ∀ e ∈ t.entries, (e.1.matchPath path).isSome = true → e.1 = s ∨ s.priority e.1 = .lt := by
  obtain ⟨before, ⟨key, value⟩, after, split, matches_, none_before⟩ :=
    List.findSome?_eq_some_iff.mp found
  obtain ⟨m', matched, same⟩ := Option.map_eq_some_iff.mp matches_
  obtain ⟨rfl, rfl⟩ := Prod.mk.inj same
  have sorted := ordered.sorted
  rw [split] at sorted
  obtain ⟨-, back, -⟩ := List.pairwise_append.mp sorted
  refine ⟨key, ordered.mem_iff.mp (by rw [split]; simp), matched, ?_⟩
  intro e he does
  rw [split] at he
  rcases List.mem_append.mp he with earlier | here
  · have silent := Option.map_eq_none_iff.mp (none_before e earlier)
    rw [silent] at does
    exact absurd does (by simp)
  · rcases List.mem_cons.mp here with rfl | later
    · exact .inl rfl
    · exact .inr ((List.pairwise_cons.mp back).1 e later)

theorem resolve_eq_none {path : List Char} (missed : t.resolve path = none) :
    ∀ e ∈ t.entries, e.1.matchPath path = none := by
  intro e he
  exact Option.map_eq_none_iff.mp (List.findSome?_eq_none_iff.mp missed e he)

/-! ### Tables filled from nothing -/

variable {inserts inserts' : List (Spec × α)}

theorem get?_of_empty (inserts : List (Spec × α)) (s : Spec) :
    (({} : Table α).putAll inserts).get? s = inserts.lookup s :=
  get?_putAll {} inserts s

theorem exists_lookup {e : Spec × α} (among : e ∈ inserts) :
    ∃ v, inserts.lookup e.1 = some v := by
  apply Option.isSome_iff_exists.mp
  exact List.lookup_isSome_iff.mpr ⟨e, among, beq_self_eq_true e.1⟩

/-- A path goes to the winner among the specs that match it, with the value registered first. -/
theorem resolve_of_empty (declared : ∀ e ∈ inserts, e.1.Declared) (path : List Char) :
    match (({} : Table α).putAll inserts).resolve path with
    | none => ∀ e ∈ inserts, e.1.matchPath path = none
    | some (v, m) => ∃ s, inserts.lookup s = some v ∧ s.matchPath path = some m
        ∧ ∀ e ∈ inserts, (e.1.matchPath path).isSome = true → e.1 = s ∨ s.priority e.1 = .lt := by
  have ordered := ordered_empty.putAll declared
  have kept (e : Spec × α) (among : e ∈ inserts) :
      ∃ w, (e.1, w) ∈ (({} : Table α).putAll inserts).entries := by
    obtain ⟨w, found⟩ := exists_lookup among
    exact ⟨w, mem_of_get? ((get?_of_empty inserts e.1).trans found)⟩
  cases found : (({} : Table α).putAll inserts).resolve path with
  | none =>
      intro e among
      obtain ⟨w, he⟩ := kept e among
      exact resolve_eq_none found (e.1, w) he
  | some hit =>
      obtain ⟨v, m⟩ := hit
      obtain ⟨s, value, matched, first⟩ := ordered.resolve_eq_some found
      refine ⟨s, (get?_of_empty inserts s).symm.trans value, matched, ?_⟩
      intro e among does
      obtain ⟨w, he⟩ := kept e among
      exact first (e.1, w) he does

def OneValue (inserts : List (Spec × α)) : Prop :=
  ∀ s v w, (s, v) ∈ inserts → (s, w) ∈ inserts → v = w

theorem oneValue_of_nodup (distinct : (inserts.map Prod.fst).Nodup) : OneValue inserts := by
  intro s v w first second
  induction inserts with
  | nil => exact absurd first List.not_mem_nil
  | cons e rest ih =>
      obtain ⟨apart, later⟩ := List.pairwise_cons.mp distinct
      have elsewhere {u : α} (among : (s, u) ∈ rest) : e.1 ≠ s :=
        apart s (List.mem_map_of_mem (f := Prod.fst) among)
      rcases List.mem_cons.mp first with here | further
      · rcases List.mem_cons.mp second with here' | further'
        · exact (Prod.mk.inj (here.trans here'.symm)).2
        · exact absurd (by rw [← here]) (elsewhere further')
      · rcases List.mem_cons.mp second with here' | further'
        · exact absurd (by rw [← here']) (elsewhere further)
        · exact ih later further further'

theorem lookup_eq_some_iff_mem (single : OneValue inserts) :
    inserts.lookup s = some v ↔ (s, v) ∈ inserts := by
  have among {w : α} (found : inserts.lookup s = some w) : (s, w) ∈ inserts := by
    obtain ⟨before, after, rfl, -⟩ := List.lookup_eq_some_iff.mp found
    simp
  refine ⟨among, ?_⟩
  intro registered
  obtain ⟨w, found⟩ := exists_lookup registered
  rw [single s v w registered (among found)]
  exact found

/-- Registrations of the same pairs give one table, in whatever order they are made. -/
theorem putAll_of_same_pairs (declared : ∀ e ∈ inserts, e.1.Declared) (single : OneValue inserts)
    (same : ∀ e, e ∈ inserts' ↔ e ∈ inserts) :
    ({} : Table α).putAll inserts' = ({} : Table α).putAll inserts := by
  have declared' : ∀ e ∈ inserts', e.1.Declared := fun e he => declared e ((same e).mp he)
  have single' : OneValue inserts' := by
    intro s v w first second
    exact single s v w ((same _).mp first) ((same _).mp second)
  refine (ordered_empty.putAll declared').eq_of_get? (ordered_empty.putAll declared) ?_
  intro s
  apply Option.ext
  intro v
  rw [get?_of_empty, get?_of_empty, lookup_eq_some_iff_mem single',
    lookup_eq_some_iff_mem single, same]

end Table

/-! ### The order and the check for duplicates -/

namespace Spec
variable {a b : Spec}

/-- Precedence is a strict total order on declared specs: it is transitive, it turns round with the
two specs, and they rank alike only when they are the same, as the check for duplicates has it. What
decides last is the bytes of the display texts. -/
theorem priority_orders_declared_specs (ha : a.Declared) (hb : b.Declared) :
    (∀ c order, a.priority b = order → b.priority c = order → a.priority c = order)
      ∧ b.priority a = (a.priority b).swap
      ∧ (a.priority b = .eq ↔ a = b)
      ∧ (∀ {α : Type} (t : Table α) (v : α), (∀ e ∈ t.entries, e.1.Declared) →
        (t.insert? a v = none ↔ ∃ e ∈ t.entries, e.1.priority a = .eq))
      ∧ a.priority b
        = ((compare a.group.rank b.group.rank).then (compare b.specificity a.specificity)).then
          (compare (Text.encode a.display) (Text.encode b.display)) := by
  have alike_self (s : Spec) : s.priority s = .eq := Std.ReflCmp.compare_self
  refine ⟨?_, Std.OrientedCmp.eq_swap, ?_, ?_, ?_⟩
  · intro c order first second
    cases order with
    | lt => exact Std.TransCmp.lt_trans first second
    | eq => exact Std.TransCmp.eq_trans first second
    | gt => exact Std.TransCmp.gt_trans first second
  · constructor
    · exact ha.eq_of_priority_eq hb
    · rintro rfl
      exact alike_self a
  · intro α t v entered
    rw [Table.insert?_eq_none_iff]
    constructor
    · rintro ⟨w, entry⟩
      exact ⟨(a, w), entry, alike_self a⟩
    · rintro ⟨e, entry, alike⟩
      obtain same := (entered e entry).eq_of_priority_eq ha alike
      exact ⟨e.2, same ▸ entry⟩
  · rw [Text.compare_encode]
    rfl

/-- Of two specs of one group that fix equally many bytes, the one with the lower bytes wins. -/
theorem priority_orders_declared_specs_by_bytes :
    let a : Spec := .below "/zz".toList
    let b : Spec := .below "/é".toList
    a.Declared ∧ b.Declared ∧ a.priority b = .lt ∧ b.priority a = .gt
      ∧ a.priority (.suffix "ws".toList) = .lt
      ∧ Table.insert? ⟨[(a, 1)]⟩ a 2 = none := by
  intro a b
  have ha : a.Declared := ⟨"/zz/*".toList, rfl⟩
  have hb : b.Declared := ⟨"/é/*".toList, rfl⟩
  obtain ⟨trans, swap, -, refused, bytes⟩ := priority_orders_declared_specs ha hb
  have first : a.priority b = .lt := bytes.trans (by decide)
  refine ⟨ha, hb, first, by rw [swap, first]; rfl, ?_, ?_⟩
  · exact trans (.suffix "ws".toList) .lt first (by decide)
  · refine (refused ⟨[(a, 1)]⟩ 2 ?_).mpr ⟨(a, 1), List.mem_cons_self, Std.ReflCmp.compare_self⟩
    intro e entry
    obtain rfl := List.mem_singleton.mp entry
    exact ha

end Spec
end Gateway.Path
