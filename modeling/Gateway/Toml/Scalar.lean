import Gateway.Document
import Gateway.Toml.Text

/-!
Numbers and dates of TOML. Integers keep their value; of other numbers and of dates only the fact
that they are well formed is kept.
-/
namespace Gateway.Toml
open Text (char? ofDigits)

/-- Digits of a radix with single underscores between them; the underscores are dropped. The flag
says that the last character was a digit, so that the run may end or go on with an underscore. -/
def digitRun? (radix : Nat) (afterDigit : Bool) : List Char → Option (List Nat × List Char)
  | [] => if afterDigit then some ([], []) else none
  | c :: rest =>
    match Text.digit? radix c with
    | some d => (digitRun? radix true rest).map fun (ds, rest) => (d :: ds, rest)
    | none =>
      if !afterDigit then none
      else if c == '_' then digitRun? radix false rest
      else some ([], c :: rest)

def digits? (radix : Nat) (cs : List Char) : Option (List Nat × List Char) :=
  digitRun? radix false cs

def sign (cs : List Char) : Bool × List Char :=
  match cs with
  | '-' :: rest => (true, rest)
  | '+' :: rest => (false, rest)
  | _ => (false, cs)

def signed (minus : Bool) (n : Nat) : Int := if minus then -Int.ofNat n else Int.ofNat n

/-- The digits of a decimal integer: no zero in front of others. -/
def decimalDigits? (cs : List Char) : Option (List Nat × List Char) :=
  match cs with
  | '0' :: rest => some ([0], rest)
  | _ => digits? 10 cs

def inRange (n : Int) : Bool :=
  decide (-9223372036854775808 ≤ n) && decide (n < 9223372036854775808)

def integer? (cs : List Char) : Option (Int × List Char) :=
  let read : Option (Int × List Char) :=
    match cs with
    | '0' :: 'x' :: rest =>
      (digits? 16 rest).map fun (ds, rest) => (Int.ofNat (ofDigits 16 ds), rest)
    | '0' :: 'o' :: rest =>
      (digits? 8 rest).map fun (ds, rest) => (Int.ofNat (ofDigits 8 ds), rest)
    | '0' :: 'b' :: rest =>
      (digits? 2 rest).map fun (ds, rest) => (Int.ofNat (ofDigits 2 ds), rest)
    | _ =>
      let (minus, rest) := sign cs
      (decimalDigits? rest).map fun (ds, rest) => (signed minus (ofDigits 10 ds), rest)
  read.filter fun (n, _) => inRange n

/-- The least number that rounds to infinity in double precision. -/
def overflow : Nat := Nat.pow 2 1024 - Nat.pow 2 970

def overflows (m : Nat) (e : Int) : Bool :=
  let size := (toString m).length
  if m = 0 ∨ (size : Int) + e < 300 then false
  else if 400 < (size : Int) + e then true
  else if 0 ≤ e then overflow ≤ m * Nat.pow 10 e.toNat
  else overflow * Nat.pow 10 (-e).toNat ≤ m

/-- A number with a fraction, an exponent or both. One that rounds to plus infinity is refused. -/
def decimal? (cs : List Char) : Option (Unit × List Char) := do
  let (minus, rest) := sign cs
  let (whole, rest) ← decimalDigits? rest
  let (places, hasPlaces, rest) ← match rest with
    | '.' :: rest => (digits? 10 rest).map fun (ds, rest) => (ds, true, rest)
    | rest => some ([], false, rest)
  let (exponent, hasExponent, rest) ← match rest with
    | c :: rest' =>
      if c = 'e' ∨ c = 'E' then
        let (down, rest') := sign rest'
        (digits? 10 rest').map fun (ds, rest) => (signed down (ofDigits 10 ds), true, rest)
      else some (0, false, rest)
    | [] => some (0, false, [])
  if (hasPlaces || hasExponent)
      && (minus || !overflows (ofDigits 10 (whole ++ places)) (exponent - places.length)) then
    some ((), rest)
  else none

def text? (t : List Char) (cs : List Char) : Option (List Char) := t.isPrefixOf? cs

def special? (cs : List Char) : Option (List Char) :=
  let rest := (sign cs).2
  text? "inf".toList rest <|> text? "nan".toList rest

def fixed? (count low high : Nat) (cs : List Char) : Option (Nat × List Char) := do
  let digits ← (cs.take count).mapM (Text.digit? 10)
  let n := ofDigits 10 digits
  if digits.length = count ∧ low ≤ n ∧ n ≤ high then some (n, cs.drop count) else none

def isLeapYear (y : Nat) : Bool := y % 4 == 0 && (y % 100 != 0 || y % 400 == 0)

def daysIn (year month : Nat) : Nat :=
  if month = 2 then (if isLeapYear year then 29 else 28)
  else if month ∈ [4, 6, 9, 11] then 30 else 31

def date? (cs : List Char) : Option (List Char) := do
  let (year, cs) ← fixed? 4 0 9999 cs
  let (month, cs) ← fixed? 2 1 12 (← char? '-' cs)
  let (day, cs) ← fixed? 2 1 31 (← char? '-' cs)
  if day ≤ daysIn year month then some cs else none

def time? (cs : List Char) : Option (List Char) := do
  let (_, cs) ← fixed? 2 0 23 cs
  let (_, cs) ← fixed? 2 0 59 (← char? ':' cs)
  let (_, cs) ← fixed? 2 0 60 (← char? ':' cs)
  match cs with
  | '.' :: rest =>
    if (rest.takeWhile Char.isDigit).isEmpty then none else some (rest.dropWhile Char.isDigit)
  | _ => some cs

def offset? (cs : List Char) : Option (List Char) :=
  match cs with
  | 'Z' :: rest | 'z' :: rest => some rest
  | '+' :: rest | '-' :: rest => do
    let (_, rest) ← fixed? 2 0 23 rest
    let (_, rest) ← fixed? 2 0 59 (← char? ':' rest)
    return rest
  | _ => some cs

def instant? (cs : List Char) : Option (List Char) :=
  match date? cs with
  | some rest =>
    let timed : Option (List Char) :=
      match rest with
      | 'T' :: more | 't' :: more | ' ' :: more => time? more
      | _ => none
    match timed with
    | some more => offset? more
    | none => some rest
  | none => time? cs

def scalar? (cs : List Char) : Option (Document × List Char) :=
  match text? "true".toList cs, text? "false".toList cs with
  | some rest, _ => some (.bool true, rest)
  | none, some rest => some (.bool false, rest)
  | none, none =>
    (instant? cs).map (fun rest => (Document.instant, rest))
      <|> (decimal? cs).map (fun (_, rest) => (Document.fraction, rest))
      <|> (special? cs).map (fun rest => (Document.fraction, rest))
      <|> (integer? cs).map (fun (n, rest) => (Document.integer n, rest))

end Gateway.Toml
