import Gateway.Text.Hex

/-!
Readers of what stands at the front of a text. A reader returns what it leaves unread. Digits may
be of any radix up to sixteen; letters among them count in either case.
-/
namespace Gateway.Text

abbrev Reader (α : Type) := List Char → Option (α × List Char)

def char? (c : Char) : List Char → Option (List Char)
  | d :: rest => if c = d then some rest else none
  | [] => none

def digit? (radix : Nat) (c : Char) : Option Nat := (Hex.value? c).filter (· < radix)

def spanDigits (radix : Nat) : List Char → List Nat × List Char
  | [] => ([], [])
  | c :: rest =>
    match digit? radix c with
    | some d =>
      let (ds, rest) := spanDigits radix rest
      (d :: ds, rest)
    | none => ([], c :: rest)

def ofDigits (radix : Nat) (ds : List Nat) : Nat := ds.foldl (fun n d => n * radix + d) 0

/-- A whole text that is a decimal number, with or without a plus sign in front. -/
def unsigned? (cs : List Char) : Option Nat :=
  match spanDigits 10 ((char? '+' cs).getD cs) with
  | ([], _) | (_, _ :: _) => none
  | (ds, []) => some (ofDigits 10 ds)

end Gateway.Text
