import Gateway.Path.Spec
import Gateway.Text.Bytes

/-!
Which of two matching specs wins: the one of the lower group, then the more specific one, then
the one whose display text comes first.
-/
namespace Gateway.Path

def Segment.isLiteral : Segment → Bool
  | .literal _ => true
  | .variableName _ => false

namespace Spec

/-- How much a spec says about the paths it takes: bytes of fixed text, or fixed segments. -/
def specificity : Spec → Nat
  | .exact text | .below text | .suffix text => Text.byteLength text
  | .template _ segments => (segments.filter Segment.isLiteral).length
  | .default => 0

/-- The order of precedence; `lt` says that the first wins. -/
def priority (a b : Spec) : Ordering :=
  ((compare a.group.rank b.group.rank).then (compare b.specificity a.specificity)).then
    (compare a.display b.display)

end Spec

end Gateway.Path
