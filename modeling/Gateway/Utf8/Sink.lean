/-!
Where decoded characters go. A sink counts in its own units: bytes for text held as a `String`,
16-bit units for text held as UTF-16. What a sink renders is a `String` in both cases.
-/
namespace Gateway.Utf8

def replacement : Char := Char.ofNat 0xFFFD

/-- A growable text buffer. `size` counts the sink's own units, `text` renders it. -/
class Sink (σ : Type) where
  empty : σ
  push : σ → Char → σ
  size : σ → Nat
  text : σ → String

namespace Sink

def pushAll {σ : Type} [Sink σ] (s : σ) (cs : List Char) : σ := cs.foldl push s

def isEmpty {σ : Type} [Sink σ] (s : σ) : Bool := size s == 0

end Sink

instance : Sink String where
  empty := ""
  push := String.push
  size := String.utf8ByteSize
  text := id

structure Utf16 where
  units : Array UInt16 := #[]
  deriving DecidableEq, Repr, Inhabited

namespace Utf16

/-- One unit for a scalar up to U+FFFF, a surrogate pair above it. -/
def encode (c : Char) : List UInt16 :=
  if c.toNat < 0x10000 then [UInt16.ofNat c.toNat]
  else
    let n := c.toNat - 0x10000
    [UInt16.ofNat (0xD800 + n / 0x400), UInt16.ofNat (0xDC00 + n % 0x400)]

def isHigh (u : UInt16) : Bool := 0xD800 ≤ u && u < 0xDC00

def isLow (u : UInt16) : Bool := 0xDC00 ≤ u && u < 0xE000

/-- Reads units back; a surrogate without its partner becomes the replacement character. -/
def decode : List UInt16 → List Char
  | [] => []
  | [u] => [if isHigh u || isLow u then replacement else Char.ofNat u.toNat]
  | u :: v :: rest =>
    if isHigh u then
      if isLow v then
        Char.ofNat (0x10000 + (u.toNat - 0xD800) * 0x400 + (v.toNat - 0xDC00)) :: decode rest
      else replacement :: decode (v :: rest)
    else if isLow u then replacement :: decode (v :: rest)
    else Char.ofNat u.toNat :: decode (v :: rest)

instance : Sink Utf16 where
  empty := {}
  push s c := ⟨s.units ++ encode c⟩
  size s := s.units.size
  text s := String.ofList (decode s.units.toList)

end Utf16
end Gateway.Utf8
