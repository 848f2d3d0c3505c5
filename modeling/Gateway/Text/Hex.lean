/-!
Hexadecimal text for bytes and numbers, in either case. Reading takes both cases; writing picks one.
-/
namespace Gateway.Text.Hex

/-- The digit of a value below sixteen; larger values are reduced. -/
def digit (upper : Bool) (n : Nat) : Char :=
  let n := n % 16
  if n < 10 then Char.ofNat (48 + n) else Char.ofNat ((if upper then 55 else 87) + n)

def value? (c : Char) : Option Nat :=
  if '0' ≤ c ∧ c ≤ '9' then some (c.toNat - 48)
  else if 'a' ≤ c ∧ c ≤ 'f' then some (c.toNat - 87)
  else if 'A' ≤ c ∧ c ≤ 'F' then some (c.toNat - 55)
  else none

def upperByte (b : UInt8) : String :=
  String.ofList [digit true (b.toNat / 16), digit true b.toNat]

/-- The lower-case digits of a number, high half first, without padding. -/
def lowerDigits (n : Nat) : List Char := Nat.toDigits 16 n

def ofBytes (bytes : List UInt8) : String :=
  String.ofList (bytes.flatMap fun b => [digit false (b.toNat / 16), digit false b.toNat])

/-- Reads pairs of digits. A half pair or a foreign character refuses the whole text. -/
def bytes? : List Char → Option (List UInt8)
  | [] => some []
  | [_] => none
  | h :: l :: rest => do
    let h ← value? h
    let l ← value? l
    let tail ← bytes? rest
    return UInt8.ofNat (16 * h + l) :: tail

end Gateway.Text.Hex
