import Gateway.Text.Reader

/-!
Session ids. An id is a number of 128 bits. How such numbers are written and read is a format; an id
is shown as its format writes it, behind a mark, and is read with the mark or without.
-/
namespace Gateway.Session

abbrev Id := BitVec 128

namespace Id

/-- How ids are written and read where they stand alone. -/
structure Format where
  write : Id → List Char
  read? : List Char → Option Id

def mark : List Char := "ws-".toList

namespace Format

def display (f : Format) (id : Id) : List Char := mark ++ f.write id

/-- Reads an id with or without one mark in front. -/
def parse? (f : Format) (cs : List Char) : Option Id := f.read? ((mark.isPrefixOf? cs).getD cs)

end Format

/-- The id made up for the n-th session: of the form of a random one, and different for each. -/
def made (n : Nat) : Id :=
  BitVec.ofNat 128
    (0x4000 * Nat.pow 2 64 + 0x8000 * Nat.pow 2 48 + n % Nat.pow 2 48)

end Id
end Gateway.Session
