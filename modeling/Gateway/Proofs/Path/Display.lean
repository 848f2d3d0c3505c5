import Gateway.Proofs.Path.Reading

/-!
Display texts. A spec is shown as the text that it was read from, less the mark, and that text is
read as the spec again. So nothing is lost where a spec is held in a stripped form, and specs that
are shown alike are the same: `display_reads_back`.
-/
namespace Gateway.Path

variable {raw declaration : List Char} {s : Spec}

theorem dropMark_mark (raw : List Char) : dropMark (templateMark ++ raw) = raw := by
  rw [dropMark, List.isPrefixOf?_eq_some_iff_append_eq.mpr rfl]
  rfl

theorem dropMark_unmarked (plain : ¬ templateMark <+: raw) : dropMark raw = raw := by
  rcases unmarked_dropMark raw with marked | ⟨same, -⟩
  · exact absurd ⟨_, marked.symm⟩ plain
  · exact same

/-- What is left of a declaration starts with a slash or with a star, never with the mark. -/
theorem Declares.unmarked (declares : Declares raw s) : ¬ templateMark <+: raw := by
  have mark : templateMark = 'u' :: templateMark.tail := rfl
  rintro ⟨rest, split⟩
  rw [mark, List.cons_append] at split
  cases declares with
  | default | suffix | exact | template => exact absurd (List.cons.inj split).1 (by decide)
  | below rooted plain =>
      rcases rooted with rfl | ⟨more, rfl⟩
      · exact absurd (List.cons.inj split).1 (by decide)
      · exact absurd (List.cons.inj split).1 (by decide)

theorem Declares.display (declares : Declares raw s) : s.display = raw := by
  cases declares with
  | default | suffix | exact | below | template => rfl

namespace Spec

theorem parse_display (declares : Declares raw s) : parse s.display = .ok s := by
  rw [declares.display]
  exact parse_of_declares (dropMark_unmarked declares.unmarked) declares

theorem eq_of_display_eq {t : Spec} {raw' : List Char} (declares : Declares raw s)
    (declares' : Declares raw' t) (alike : s.display = t.display) : s = t := by
  have again := parse_display declares
  rw [alike, parse_display declares'] at again
  exact (Except.ok.inj again).symm

/-- A spec is shown as its declaration without the mark. Its display text, bare or with one mark in
front, is read as the spec again, and no other text is; so specs that are shown alike are the
same. -/
theorem display_reads_back {declaration : String} {s : Spec}
    (parsed : parse declaration.toList = .ok s) :
    Unmarked declaration.toList s.toString.toList
      ∧ (∀ text : String, parse text.toList = .ok s
        ↔ text = s.toString ∨ text = String.ofList templateMark ++ s.toString)
      ∧ ∀ (other : String) (t : Spec), parse other.toList = .ok t → t.toString = s.toString →
        t = s := by
  have shown (t : Spec) : t.toString.toList = t.display := String.toList_ofList
  have declares := declares_of_parse parsed
  refine ⟨?_, ?_, ?_⟩
  · rw [shown, declares.display]
    exact unmarked_dropMark declaration.toList
  · intro text
    constructor
    · intro read
      have whole := (declares_of_parse read).display
      rcases unmarked_dropMark text.toList with marked | ⟨bare, -⟩
      · refine .inr (String.toList_injective ?_)
        rw [String.toList_append, String.toList_ofList, shown, whole]
        exact marked
      · refine .inl (String.toList_injective ?_)
        rw [shown, whole, bare]
    · rintro (rfl | rfl)
      · rw [shown]
        exact parse_display declares
      · rw [String.toList_append, String.toList_ofList, shown, declares.display]
        exact parse_of_declares (dropMark_mark _) declares
  · intro other t read alike
    exact eq_of_display_eq (declares_of_parse read) declares (String.ofList_injective alike)

/-- A template that was declared with the mark, and is shown without it. -/
theorem display_reads_back_without_mark :
    let s : Spec := .template "/rooms/{room}/feed".toList
      [.literal "rooms".toList, .variableName "room".toList, .literal "feed".toList]
    parse "uri-template|/rooms/{room}/feed".toList = .ok s ∧ s.toString = "/rooms/{room}/feed"
      ∧ parse "/rooms/{room}/feed".toList = .ok s := by
  intro s
  have parsed : parse "uri-template|/rooms/{room}/feed".toList = .ok s := by rfl
  obtain ⟨-, texts, -⟩ := display_reads_back parsed
  have shown : s.toString = "/rooms/{room}/feed" := String.ofList_toList
  exact ⟨parsed, shown, (texts "/rooms/{room}/feed").mpr (.inl shown.symm)⟩

end Spec
end Gateway.Path
