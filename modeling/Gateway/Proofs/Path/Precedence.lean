import Gateway.Path.Table
import Gateway.Proofs.Path.Display

/-!
The order of precedence. On specs that some text declares it is a strict total order: two of them
rank alike only when they are the same spec, because a declared spec can be read back from its
display text.
-/
namespace Gateway.Path

namespace Spec

/-- Some text declares the spec. -/
def Declared (s : Spec) : Prop := ∃ declaration, parse declaration = .ok s

variable {a b c : Spec}

/-- The order is lexicographic: group, then specificity downwards, then display text. -/
theorem priority_eq_compareLex : priority = compareLex
    (compareLex (compareOn fun s => s.group.rank) fun a b => compareOn specificity b a)
    (compareOn display) := rfl

instance transCmp_priority : Std.TransCmp priority := by
  rw [priority_eq_compareLex]
  have downwards : Std.TransCmp fun a b => compareOn specificity b a := Std.TransCmp.opposite
  infer_instance

theorem display_eq_of_priority_eq (alike : a.priority b = .eq) : a.display = b.display := by
  rw [priority, Ordering.then_eq_eq] at alike
  exact Std.LawfulEqCmp.eq_of_compare alike.2

theorem Declared.eq_of_priority_eq (ha : a.Declared) (hb : b.Declared)
    (alike : a.priority b = .eq) : a = b := by
  obtain ⟨_, parsed⟩ := ha
  obtain ⟨_, parsed'⟩ := hb
  exact eq_of_display_eq (declares_of_parse parsed) (declares_of_parse parsed')
    (display_eq_of_priority_eq alike)

theorem Declared.lt_or_gt (ha : a.Declared) (hb : b.Declared) (differ : a ≠ b) :
    a.priority b = .lt ∨ b.priority a = .lt := by
  cases order : a.priority b with
  | lt => exact .inl rfl
  | eq => exact absurd (ha.eq_of_priority_eq hb order) differ
  | gt => exact .inr (Std.OrientedCmp.lt_of_gt order)

theorem priority_irrefl (a : Spec) : a.priority a ≠ .lt := by
  have alike : a.priority a = .eq := Std.ReflCmp.compare_self
  rw [alike]
  decide

theorem priority_asymm (first : a.priority b = .lt) : b.priority a ≠ .lt := by
  intro second
  exact priority_irrefl a (Std.TransCmp.lt_trans first second)

end Spec
end Gateway.Path
