import Mathlib.Data.List.DropRight
import Mathlib.Logic.Relation
import Gateway.Proofs.Http.Authorization
import Gateway.Upgrade.Request

/-!
Offers of subprotocols, as the lines of a header spell them. Elements stand between commas, and an
element is a token with blanks around it, or blanks alone; what is on offer are the tokens, in
order. So it does not matter how the elements are spread over lines, nor what blanks and empty
elements stand between them. Main statements: `Brings.offered_eq_iff` and `Brings.respelled`.
-/
namespace Gateway

/-! ### Trimming -/

namespace Text

variable {α : Type} {p : α → Bool} {x : α} {xs : List α}

theorem trimBy_eq_rdropWhile (p : α → Bool) (xs : List α) :
    trimBy p xs = (xs.dropWhile p).rdropWhile p := rfl

theorem exists_trimBy (p : α → Bool) (xs : List α) : ∃ before after,
    xs = before ++ trimBy p xs ++ after
      ∧ (∀ x ∈ before, p x = true) ∧ ∀ x ∈ after, p x = true := by
  refine ⟨xs.takeWhile p, (xs.dropWhile p).rtakeWhile p, ?_, ?_, ?_⟩
  · rw [trimBy_eq_rdropWhile, List.append_assoc, List.rdropWhile_append_rtakeWhile,
      List.takeWhile_append_dropWhile]
  · intro x among
    exact List.mem_takeWhile_imp among
  · intro x among
    exact List.mem_rtakeWhile_imp among

theorem trimBy_padded {before after : List α} (xs : List α) (starts : ∀ x ∈ before, p x = true)
    (ends : ∀ x ∈ after, p x = true) : trimBy p (before ++ xs ++ after) = trimBy p xs := by
  rw [trimBy, List.append_assoc, List.dropWhile_append_of_pos starts, List.dropWhile_append]
  split
  · rename_i blank
    rw [trimBy, List.dropWhile_eq_nil_iff.mpr ends, List.isEmpty_iff.mp blank]
  · rw [List.reverse_append, List.dropWhile_append_of_pos, ← trimBy]
    intro x among
    exact ends x (List.mem_reverse.mp among)

theorem head?_trimBy (first : (trimBy p xs).head? = some x) : p x = false := by
  obtain ⟨rest, split⟩ := List.rdropWhile_prefix p (xs.dropWhile p)
  obtain ⟨later, shape⟩ := List.head?_eq_some_iff.mp first
  have dropped := List.head?_dropWhile_not p xs
  rw [← split, ← trimBy_eq_rdropWhile, shape, List.cons_append, List.head?_cons] at dropped
  exact dropped

theorem getLast?_trimBy (last : (trimBy p xs).getLast? = some x) : p x = false := by
  obtain ⟨earlier, shape⟩ := List.getLast?_eq_some_iff.mp last
  rw [trimBy_eq_rdropWhile] at shape
  have kept := List.rdropWhile_last_not p (xs.dropWhile p) (by simp [shape])
  simpa [shape] using kept

theorem trimBy_eq_self (first : ∀ x ∈ xs.head?, p x = false)
    (last : ∀ x ∈ xs.getLast?, p x = false) : trimBy p xs = xs := by
  have starts : xs.dropWhile p = xs := by
    cases xs with
    | nil => rfl
    | cons x rest => exact List.dropWhile_cons_of_neg (by simp [first x rfl])
  rw [trimBy_eq_rdropWhile, starts, List.rdropWhile_eq_self_iff]
  intro some_item
  simp [last _ (List.getLast?_eq_some_getLast some_item)]

end Text

namespace Upgrade.Offer

open Http (Headers IsReadable)

/-! ### How a line spells tokens -/

/-- What may stand around an element of an offer. -/
def IsPad (ch : Char) : Prop := ch = ' ' ∨ ch = '\t'

structure IsToken (token : List Char) : Prop where
  nonempty : token ≠ []
  no_comma : ',' ∉ token
  starts : ∀ ch ∈ token.head?, ¬ IsPad ch
  ends : ∀ ch ∈ token.getLast?, ¬ IsPad ch

/-- One element, and the token in it: blanks alone, or a token with blanks around it. -/
inductive Element : List Char → Option String → Prop
  | blank {pads : List Char} : (∀ ch ∈ pads, IsPad ch) → Element pads none
  | token {before token after : List Char} : (∀ ch ∈ before, IsPad ch) → IsToken token →
      (∀ ch ∈ after, IsPad ch) → Element (before ++ token ++ after) (some (String.ofList token))

/-- A line spells the tokens of its elements, which commas set apart. -/
inductive Spells : List Char → List String → Prop
  | last {element : List Char} {token : Option String} : Element element token →
      Spells element token.toList
  | more {element line : List Char} {token : Option String} {later : List String} :
      Element element token → Spells line later →
      Spells (element ++ ',' :: line) (token.toList ++ later)

inductive SpellAll : List String → List String → Prop
  | nil : SpellAll [] []
  | cons {line : String} {lines tokens later : List String} : Spells line.toList tokens →
      SpellAll lines later → SpellAll (line :: lines) (tokens ++ later)

/-! ### Elements -/

/-- The token of an element, as it is read: what trimming leaves of it, if that is anything. -/
def token? (element : List Char) : Option String :=
  if (Text.trim element).isEmpty then none else some (String.ofList (Text.trim element))

def tokensIn (line : List Char) : List String := (line.splitOn ',').filterMap token?

theorem offersIn_eq (line : String) : Request.offersIn line = tokensIn line.toList := by
  rw [Request.offersIn, List.filterMap_map]
  rfl

variable {ch : Char} {before after element line pads : List Char} {token : Option String}
  {tokens : List String}

theorem isBlank_of_isPad (pad : IsPad ch) : Text.isBlank ch = true := by
  rcases pad with rfl | rfl
  · rfl
  · rfl

/-- Among the characters that can be read there are no blanks but these two. -/
theorem isPad_of_isBlank (readable : IsReadable ch) (blank : Text.isBlank ch = true) :
    IsPad ch := by
  rw [IsPad, ← Char.toNat_inj, ← Char.toNat_inj]
  simp only [IsReadable, Text.isBlank, Bool.or_eq_true, Bool.and_eq_true, decide_eq_true_eq,
    beq_iff_eq] at readable blank
  change ch.toNat = 32 ∨ ch.toNat = 9
  omega

theorem token?_padded (starts : ∀ ch ∈ before, IsPad ch) (ends : ∀ ch ∈ after, IsPad ch)
    (element : List Char) : token? (before ++ element ++ after) = token? element := by
  have same : Text.trim (before ++ element ++ after) = Text.trim element :=
    Text.trimBy_padded element (fun ch among => isBlank_of_isPad (starts ch among))
      fun ch among => isBlank_of_isPad (ends ch among)
  rw [token?, token?, same]

theorem IsToken.reads {token : List Char} (is : IsToken token)
    (readable : ∀ ch ∈ token, IsReadable ch) : token? token = some (String.ofList token) := by
  have trimmed : Text.trim token = token := by
    refine Text.trimBy_eq_self ?_ ?_
    · intro ch first
      have among : ch ∈ token := List.mem_of_mem_head? first
      exact Bool.eq_false_iff.mpr fun blank =>
        is.starts ch first (isPad_of_isBlank (readable ch among) blank)
    · intro ch last
      have among : ch ∈ token := List.mem_of_mem_getLast? last
      exact Bool.eq_false_iff.mpr fun blank =>
        is.ends ch last (isPad_of_isBlank (readable ch among) blank)
  rw [token?, trimmed, if_neg (by simpa using is.nonempty)]

theorem Element.reads (is : Element element token) (readable : ∀ ch ∈ element, IsReadable ch) :
    token? element = token := by
  cases is with
  | blank pads =>
      have empty := token?_padded pads (List.forall_mem_nil IsPad) []
      rw [List.append_nil, List.append_nil] at empty
      exact empty
  | token starts is ends =>
      rw [token?_padded starts ends]
      apply is.reads
      intro ch among
      exact readable ch (List.mem_append_left _ (List.mem_append_right _ among))

theorem Element.no_comma (is : Element element token) : ',' ∉ element := by
  have apart {pads : List Char} (blank : ∀ ch ∈ pads, IsPad ch) : ',' ∉ pads :=
    fun among => absurd (blank ',' among) (by simp [IsPad])
  cases is with
  | blank pads => exact apart pads
  | token starts is ends => simp [apart starts, is.no_comma, apart ends]

theorem element_token? (readable : ∀ ch ∈ element, IsReadable ch) (no_comma : ',' ∉ element) :
    Element element (token? element) := by
  obtain ⟨before, after, shape, starts, ends⟩ := Text.exists_trimBy Text.isBlank element
  rw [← Text.trim] at shape
  have before_pads : ∀ ch ∈ before, IsPad ch := by
    intro ch among
    refine isPad_of_isBlank (readable ch ?_) (starts ch among)
    rw [shape]
    exact List.mem_append_left _ (List.mem_append_left _ among)
  have after_pads : ∀ ch ∈ after, IsPad ch := by
    intro ch among
    refine isPad_of_isBlank (readable ch ?_) (ends ch among)
    rw [shape]
    exact List.mem_append_right _ among
  rw [token?]
  split
  · rename_i empty
    rw [List.isEmpty_iff.mp empty, List.append_nil] at shape
    rw [shape]
    exact .blank (List.forall_mem_append.mpr ⟨before_pads, after_pads⟩)
  · rename_i some_left
    have left : IsToken (Text.trim element) := {
      nonempty := by simpa using some_left
      no_comma := by
        intro among
        apply no_comma
        rw [shape]
        exact List.mem_append_left _ (List.mem_append_right _ among)
      starts := fun ch first pad => by
        simpa [isBlank_of_isPad pad] using Text.head?_trimBy first
      ends := fun ch last pad => by
        simpa [isBlank_of_isPad pad] using Text.getLast?_trimBy last }
    have is := Element.token before_pads left after_pads
    rwa [← shape] at is

/-! ### Lines -/

theorem tokensIn_append_comma (line later : List Char) :
    tokensIn (line ++ ',' :: later) = tokensIn line ++ tokensIn later := by
  rw [tokensIn, List.splitOn_append_cons_self, List.filterMap_append]
  rfl

theorem tokensIn_of_no_comma (no_comma : ',' ∉ element) :
    tokensIn element = (token? element).toList := by
  rw [tokensIn, List.splitOn_eq_singleton no_comma]
  cases found : token? element with
  | none => rw [List.filterMap_cons_none found, List.filterMap_nil, Option.toList_none]
  | some token => rw [List.filterMap_cons_some found, List.filterMap_nil, Option.toList_some]

/-- A line is an element, or an element and a line with a comma between them. -/
theorem comma_induction {motive : List Char → Prop}
    (last : ∀ element, ',' ∉ element → motive element)
    (more : ∀ element line, ',' ∉ element → motive line → motive (element ++ ',' :: line))
    (line : List Char) : motive line := by
  by_cases comma : ',' ∈ line
  · obtain ⟨element, rest, shape, apart⟩ := List.eq_append_cons_of_mem comma
    have shorter : rest.length < line.length := by
      rw [shape, List.length_append, List.length_cons]
      omega
    rw [shape]
    exact more element rest apart (comma_induction last more rest)
  · exact last line comma
termination_by line.length

/-- A line spells the tokens that are read, and no others. -/
theorem spells_iff (readable : ∀ ch ∈ line, IsReadable ch) :
    Spells line tokens ↔ tokensIn line = tokens := by
  constructor
  · intro spells
    induction spells with
    | last is => rw [tokensIn_of_no_comma is.no_comma, is.reads readable]
    | more is spells ih =>
        obtain ⟨here, there⟩ := List.forall_mem_append.mp readable
        rw [tokensIn_append_comma, tokensIn_of_no_comma is.no_comma, is.reads here,
          ih (List.forall_mem_of_forall_mem_cons there)]
  · rintro rfl
    induction line using comma_induction with
    | last element no_comma =>
        rw [tokensIn_of_no_comma no_comma]
        exact .last (element_token? readable no_comma)
    | more element line no_comma ih =>
        obtain ⟨here, there⟩ := List.forall_mem_append.mp readable
        rw [tokensIn_append_comma, tokensIn_of_no_comma no_comma]
        exact .more (element_token? here no_comma) (ih (List.forall_mem_of_forall_mem_cons there))

/-! ### Other spellings -/

/-- Blanks and commas: what adds no token to a line when it is put beside an element. -/
def IsFiller (ch : Char) : Prop := IsPad ch ∨ ch = ','

theorem IsPad.filler (pad : IsPad ch) : IsFiller ch := .inl pad

theorem IsFiller.readable (filler : IsFiller ch) : IsReadable ch := by
  rcases filler with (rfl | rfl) | rfl
  · decide
  · decide
  · decide

/-- Two parts of a line meet beside an element: at an end of the line, or at a comma, with nothing
but blanks in between. -/
inductive AtEdge : List Char → List Char → Prop
  | start {pads after : List Char} : (∀ ch ∈ pads, IsPad ch) → AtEdge pads after
  | behindComma {before pads after : List Char} : (∀ ch ∈ pads, IsPad ch) →
      AtEdge (before ++ ',' :: pads) after
  | beforeComma {before pads after : List Char} : (∀ ch ∈ pads, IsPad ch) →
      AtEdge before (pads ++ ',' :: after)
  | finish {before pads : List Char} : (∀ ch ∈ pads, IsPad ch) → AtEdge before pads

/-- Lines that are spelled in another way: with blanks and commas added beside an element, with one
more line that is empty, or with two lines made one. -/
inductive Respelled : List String → List String → Prop
  | filled (earlier : List String) {later : List String} {before added after : List Char} :
      AtEdge before after → (∀ ch ∈ added, IsFiller ch) →
      Respelled (earlier ++ String.ofList (before ++ after) :: later)
        (earlier ++ String.ofList (before ++ added ++ after) :: later)
  | line (earlier : List String) {later : List String} :
      Respelled (earlier ++ later) (earlier ++ "" :: later)
  | join (earlier : List String) {later : List String} {first second : String} :
      Respelled (earlier ++ first :: second :: later)
        (earlier ++ (first ++ ", " ++ second) :: later)

theorem tokensIn_cons (filler : IsFiller ch) (line : List Char) :
    tokensIn (ch :: line) = tokensIn line := by
  rcases filler with pad | rfl
  · have pads : ∀ other ∈ [ch], IsPad other := List.forall_mem_singleton.mpr pad
    have same (element : List Char) : token? (ch :: element) = token? element := by
      have padded := token?_padded pads (List.forall_mem_nil IsPad) element
      rwa [List.append_nil] at padded
    have apart : ch ≠ ',' := by rintro rfl; simp [IsPad] at pad
    induction line using comma_induction with
    | last element no_comma =>
        rw [tokensIn_of_no_comma no_comma, tokensIn_of_no_comma, same]
        simp [no_comma, apart.symm]
    | more element line no_comma ih =>
        rw [← List.cons_append, tokensIn_append_comma, tokensIn_append_comma,
          tokensIn_of_no_comma no_comma, tokensIn_of_no_comma, same]
        simp [no_comma, apart.symm]
  · exact tokensIn_append_comma [] line

theorem tokensIn_concat (filler : IsFiller ch) (line : List Char) :
    tokensIn (line ++ [ch]) = tokensIn line := by
  rcases filler with pad | rfl
  · have pads : ∀ other ∈ [ch], IsPad other := List.forall_mem_singleton.mpr pad
    have apart : ch ≠ ',' := by rintro rfl; simp [IsPad] at pad
    induction line using comma_induction with
    | last element no_comma =>
        have same := token?_padded (List.forall_mem_nil IsPad) pads element
        rw [List.nil_append] at same
        rw [tokensIn_of_no_comma no_comma, tokensIn_of_no_comma, same]
        simp [no_comma, apart.symm]
    | more element line no_comma ih =>
        rw [List.append_assoc, List.cons_append, tokensIn_append_comma, tokensIn_append_comma, ih]
  · rw [tokensIn_append_comma]
    exact List.append_nil _

theorem tokensIn_fillers_append {added : List Char} (fillers : ∀ ch ∈ added, IsFiller ch)
    (line : List Char) : tokensIn (added ++ line) = tokensIn line := by
  induction added with
  | nil => rfl
  | cons ch rest ih =>
      obtain ⟨first, later⟩ := List.forall_mem_cons.mp fillers
      rw [List.cons_append, tokensIn_cons first, ih later]

theorem tokensIn_append_fillers {added : List Char} (fillers : ∀ ch ∈ added, IsFiller ch)
    (line : List Char) : tokensIn (line ++ added) = tokensIn line := by
  induction added generalizing line with
  | nil => rw [List.append_nil]
  | cons ch rest ih =>
      obtain ⟨first, later⟩ := List.forall_mem_cons.mp fillers
      rw [List.append_cons, ih later, tokensIn_concat first]

theorem tokensIn_filled {added : List Char} (edge : AtEdge before after)
    (fillers : ∀ ch ∈ added, IsFiller ch) :
    tokensIn (before ++ added ++ after) = tokensIn (before ++ after) := by
  have filling {pads : List Char} (blank : ∀ ch ∈ pads, IsPad ch) : ∀ ch ∈ pads, IsFiller ch :=
    fun ch among => (blank ch among).filler
  have ahead {pads : List Char} (blank : ∀ ch ∈ pads, IsPad ch) (after : List Char) :
      tokensIn (pads ++ added ++ after) = tokensIn (pads ++ after) := by
    rw [List.append_assoc, tokensIn_fillers_append (filling blank),
      tokensIn_fillers_append fillers, tokensIn_fillers_append (filling blank)]
  have behind {pads : List Char} (blank : ∀ ch ∈ pads, IsPad ch) (before : List Char) :
      tokensIn (before ++ added ++ pads) = tokensIn (before ++ pads) := by
    rw [tokensIn_append_fillers (filling blank), tokensIn_append_fillers fillers,
      tokensIn_append_fillers (filling blank)]
  -- An edge at a comma is an end of the line before it or of the line after it.
  cases edge with
  | start blank => exact ahead blank after
  | @behindComma first pads _ blank =>
      have shape (rest : List Char) :
          first ++ ',' :: pads ++ rest = first ++ ',' :: (pads ++ rest) :=
        List.append_assoc first (',' :: pads) rest
      rw [List.append_assoc, shape, shape, tokensIn_append_comma, tokensIn_append_comma,
        ← List.append_assoc, ahead blank]
  | @beforeComma _ pads rest blank =>
      rw [← List.append_assoc, ← List.append_assoc, tokensIn_append_comma, tokensIn_append_comma,
        behind blank]
  | finish blank => exact behind blank before

/-! ### Headers -/

/-- What headers offer comes in these lines, which can be read. -/
structure Brings (headers : Headers) (lines : List String) : Prop where
  values : headers.valuesOf Request.offerHeader = lines.map Text.bytes
  readable : ∀ line ∈ lines, ∀ ch ∈ line.toList, IsReadable ch

variable {headers other : Headers} {lines lines' : List String}

theorem Brings.offered_eq (brings : Brings headers lines) :
    Request.offered headers = lines.flatMap fun line => tokensIn line.toList := by
  obtain ⟨values, readable⟩ := brings
  have read : (lines.map Text.bytes).filterMap Http.valueText? = lines := by
    clear values
    induction lines with
    | nil => rfl
    | cons line rest ih =>
        obtain ⟨first, later⟩ := List.forall_mem_cons.mp readable
        rw [List.map_cons, List.filterMap_cons_some (Http.valueText?_eq_some.mpr ⟨rfl, first⟩),
          ih later]
  rw [Request.offered, values, read]
  exact List.flatMap_congr fun line _ => offersIn_eq line

/-- What is on offer are the tokens that the lines spell, and nothing else. -/
theorem Brings.offered_eq_iff (brings : Brings headers lines) :
    Request.offered headers = tokens ↔ SpellAll lines tokens := by
  rw [brings.offered_eq]
  have readable := brings.readable
  clear brings
  induction lines generalizing tokens with
  | nil =>
      rw [List.flatMap_nil]
      constructor
      · rintro rfl
        exact .nil
      · rintro ⟨⟩
        rfl
  | cons line rest ih =>
      obtain ⟨first, later⟩ := List.forall_mem_cons.mp readable
      rw [List.flatMap_cons]
      constructor
      · rintro rfl
        exact .cons ((spells_iff first).mpr rfl) ((ih later).mp rfl)
      · intro spells
        cases spells with
        | cons here there => rw [(spells_iff first).mp here, (ih later).mpr there]

theorem Respelled.cons (first : String) (respelled : Respelled lines lines') :
    Respelled (first :: lines) (first :: lines') := by
  cases respelled with
  | filled earlier edge fillers => exact .filled (first :: earlier) edge fillers
  | line earlier => exact .line (first :: earlier)
  | join earlier => exact .join (first :: earlier)

theorem respelled_joined (lines : List String) :
    Relation.ReflTransGen Respelled lines [", ".intercalate lines] := by
  induction lines with
  | nil => exact .single (.line [])
  | cons first rest ih =>
      cases rest with
      | nil => exact .refl
      | cons second rest =>
          have behind : Relation.ReflTransGen Respelled (first :: second :: rest)
              [first, ", ".intercalate (second :: rest)] :=
            ih.lift (first :: ·) fun _ _ => Respelled.cons first
          rw [String.intercalate_cons_cons]
          exact behind.tail (.join [])

theorem Respelled.readable (respelled : Respelled lines lines')
    (readable : ∀ line ∈ lines, ∀ ch ∈ line.toList, IsReadable ch) :
    ∀ line ∈ lines', ∀ ch ∈ line.toList, IsReadable ch := by
  cases respelled with
  | filled _ edge fillers =>
      simp only [List.forall_mem_append, List.forall_mem_cons, String.toList_ofList] at readable ⊢
      obtain ⟨earlier, ⟨before, after⟩, later⟩ := readable
      exact ⟨earlier, ⟨⟨before, fun ch among => (fillers ch among).readable⟩, after⟩, later⟩
  | line =>
      obtain ⟨earlier, later⟩ := List.forall_mem_append.mp readable
      refine List.forall_mem_append.mpr ⟨earlier, List.forall_mem_cons.mpr ⟨?_, later⟩⟩
      exact List.forall_mem_nil _
  | join =>
      have between : ∀ ch ∈ ", ".toList, IsReadable ch := by simp [IsReadable]
      simp only [List.forall_mem_append, List.forall_mem_cons, String.toList_append] at readable ⊢
      obtain ⟨earlier, first, second, later⟩ := readable
      exact ⟨earlier, ⟨⟨first, between⟩, second⟩, later⟩

theorem Respelled.same_tokens (respelled : Respelled lines lines') :
    lines'.flatMap (fun line => tokensIn line.toList)
      = lines.flatMap fun line => tokensIn line.toList := by
  cases respelled with
  | filled _ edge fillers =>
      simp only [List.flatMap_append, List.flatMap_cons, String.toList_ofList]
      rw [tokensIn_filled edge fillers]
  | line =>
      rw [List.flatMap_append, List.flatMap_append, List.flatMap_cons]
      rfl
  | @join _ _ first second =>
      have blank : IsFiller ' ' := .inl (.inl rfl)
      have shape : (first ++ ", " ++ second).toList
          = first.toList ++ ',' :: ' ' :: second.toList := by
        rw [String.toList_append, String.toList_append, List.append_assoc]
        rfl
      simp only [List.flatMap_append, List.flatMap_cons]
      rw [shape, tokensIn_append_comma, tokensIn_cons blank, List.append_assoc]

/-- However the lines are spelled anew, they can be read, and the same is on offer. -/
theorem Brings.respelled (brings : Brings headers lines)
    (respelled : Relation.ReflTransGen Respelled lines lines')
    (values : other.valuesOf Request.offerHeader = lines'.map Text.bytes) :
    Request.offered other = Request.offered headers := by
  obtain ⟨readable, same⟩ : (∀ line ∈ lines', ∀ ch ∈ line.toList, IsReadable ch)
      ∧ lines'.flatMap (fun line => tokensIn line.toList)
        = lines.flatMap fun line => tokensIn line.toList := by
    clear values
    induction respelled with
    | refl => exact ⟨brings.readable, rfl⟩
    | tail _ step ih => exact ⟨step.readable ih.1, step.same_tokens.trans ih.2⟩
  have anew : Brings other lines' := ⟨values, readable⟩
  rw [anew.offered_eq, brings.offered_eq, same]

end Upgrade.Offer
end Gateway
