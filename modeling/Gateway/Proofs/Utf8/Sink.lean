import Gateway.Text.Bytes
import Gateway.Utf8.Sink
import Mathlib.Algebra.Ring.Nat

/-!
Sinks that keep what they are given. Text held as bytes and text held as 16-bit units both give
back the characters that were pushed, and both grow by what a character takes up, wherever it is
pushed.
-/
namespace Gateway.Utf8

namespace Sink

class Lawful (σ : Type) [Sink σ] : Prop where
  text_pushAll (cs : List Char) : text (pushAll (empty : σ) cs) = String.ofList cs

def units (σ : Type) [Sink σ] (c : Char) : Nat := size (push (empty : σ) c)

/-- A sink that grows by the units of each character pushed into it. -/
class Measured (σ : Type) [Sink σ] : Prop where
  size_push (s : σ) (c : Char) : size (push s c) = size s + units σ c

theorem size_pushAll {σ : Type} [Sink σ] [Measured σ] (s : σ) (cs : List Char) :
    size (pushAll s cs) = size s + (cs.map (units σ)).sum := by
  induction cs generalizing s with
  | nil => rfl
  | cons c cs ih =>
      have first : pushAll s (c :: cs) = pushAll (push s c) cs := rfl
      rw [first, ih, Measured.size_push, List.map_cons, List.sum_cons, Nat.add_assoc]

theorem pushAll_string (s : String) (cs : List Char) : pushAll s cs = s ++ String.ofList cs := by
  induction cs generalizing s with
  | nil => exact (String.append_empty (s := s)).symm
  | cons c cs ih =>
      have first : pushAll s (c :: cs) = pushAll (s.push c) cs := rfl
      rw [first, ih, String.push_eq_append, String.append_assoc, String.ofList_cons]

theorem size_ofList (cs : List Char) : size (String.ofList cs) = Text.byteLength cs := by
  induction cs with
  | nil => rfl
  | cons c cs ih =>
      have rest : (String.ofList cs).utf8ByteSize = Text.byteLength cs := ih
      have whole : size (String.ofList (c :: cs)) = (String.ofList (c :: cs)).utf8ByteSize := rfl
      rw [whole, String.ofList_cons, String.utf8ByteSize_append, rest,
        String.utf8ByteSize_singleton]
      rfl

instance : Lawful String where
  text_pushAll cs := by
    rw [show (empty : String) = "" from rfl, pushAll_string, String.empty_append]
    rfl

instance : Measured String where
  size_push s c := by
    have grown (s : String) : size (push s c) = size s + c.utf8Size := String.utf8ByteSize_push
    rw [grown, units, grown]
    exact congrArg (s.utf8ByteSize + ·) (Nat.zero_add _).symm

end Sink

namespace Utf16

theorem decode_cons_plain {u : UInt16} (high : isHigh u = false) (low : isLow u = false)
    (rest : List UInt16) : decode (u :: rest) = Char.ofNat u.toNat :: decode rest := by
  cases rest with
  | nil => simp [decode, high, low]
  | cons v rest => simp [decode, high, low]

theorem decode_cons_pair {u v : UInt16} (high : isHigh u = true) (low : isLow v = true)
    (rest : List UInt16) : decode (u :: v :: rest) =
      Char.ofNat (0x10000 + (u.toNat - 0xD800) * 0x400 + (v.toNat - 0xDC00)) :: decode rest := by
  simp [decode, high, low]

theorem decode_encode_append (c : Char) (rest : List UInt16) :
    decode (encode c ++ rest) = c :: decode rest := by
  have valid := c.valid
  have number : c.toNat = c.val.toNat := rfl
  simp only [UInt32.isValidChar, Nat.isValidChar, ← number] at valid
  by_cases small : c.toNat < 0x10000
  · have same : (UInt16.ofNat c.toNat).toNat = c.toNat := UInt16.toNat_ofNat_of_lt' small
    have high : isHigh (UInt16.ofNat c.toNat) = false := by
      simp [isHigh, UInt16.le_iff_toNat_le, UInt16.lt_iff_toNat_lt, same]
      omega
    have low : isLow (UInt16.ofNat c.toNat) = false := by
      simp [isLow, UInt16.le_iff_toNat_le, UInt16.lt_iff_toNat_lt, same]
      omega
    rw [encode, if_pos small, List.singleton_append, decode_cons_plain high low, same,
      Char.ofNat_toNat]
  · have upper : (UInt16.ofNat (0xD800 + (c.toNat - 0x10000) / 0x400)).toNat
        = 0xD800 + (c.toNat - 0x10000) / 0x400 := by
      apply UInt16.toNat_ofNat_of_lt'
      simp only [UInt16.size]
      omega
    have lower : (UInt16.ofNat (0xDC00 + (c.toNat - 0x10000) % 0x400)).toNat
        = 0xDC00 + (c.toNat - 0x10000) % 0x400 := by
      apply UInt16.toNat_ofNat_of_lt'
      simp only [UInt16.size]
      omega
    have high : isHigh (UInt16.ofNat (0xD800 + (c.toNat - 0x10000) / 0x400)) = true := by
      simp [isHigh, UInt16.le_iff_toNat_le, UInt16.lt_iff_toNat_lt]
      omega
    have low : isLow (UInt16.ofNat (0xDC00 + (c.toNat - 0x10000) % 0x400)) = true := by
      simp [isLow, UInt16.le_iff_toNat_le, UInt16.lt_iff_toNat_lt]
      omega
    have joined : 0x10000 + (0xD800 + (c.toNat - 0x10000) / 0x400 - 0xD800) * 0x400
        + (0xDC00 + (c.toNat - 0x10000) % 0x400 - 0xDC00) = c.toNat := by omega
    rw [encode, if_neg small, List.cons_append, List.singleton_append, decode_cons_pair high low,
      upper, lower, joined, Char.ofNat_toNat]

theorem decode_encode (cs : List Char) : decode (cs.flatMap encode) = cs := by
  induction cs with
  | nil => rfl
  | cons c cs ih => rw [List.flatMap_cons, decode_encode_append, ih]

theorem units_pushAll (s : Utf16) (cs : List Char) :
    (Sink.pushAll s cs).units.toList = s.units.toList ++ cs.flatMap encode := by
  induction cs generalizing s with
  | nil => exact (List.append_nil _).symm
  | cons c cs ih =>
      have first : Sink.pushAll s (c :: cs) = Sink.pushAll (Sink.push s c) cs := rfl
      rw [first, ih, List.flatMap_cons, ← List.append_assoc]
      simp [Sink.push]

instance : Sink.Lawful Utf16 where
  text_pushAll cs := by
    have units := units_pushAll (Sink.empty : Utf16) cs
    have text : Sink.text (Sink.pushAll (Sink.empty : Utf16) cs)
      = String.ofList (decode (Sink.pushAll (Sink.empty : Utf16) cs).units.toList) := rfl
    rw [text, units]
    simp [Sink.empty, decode_encode]

instance : Sink.Measured Utf16 where
  size_push s c := by
    have grown (s : Utf16) : Sink.size (Sink.push s c) = Sink.size s + (encode c).length := by
      have units : (Sink.push s c).units.toList = s.units.toList ++ encode c :=
        Array.toList_appendList
      exact (congrArg List.length units).trans List.length_append
    rw [grown, Sink.units, grown]
    exact congrArg (s.units.size + ·) (Nat.zero_add _).symm

end Utf16
end Gateway.Utf8
