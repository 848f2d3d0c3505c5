import Gateway.Text.Hex

/-!
Failures of the streaming decoder. By the time one is reported, the offending sequence has
already become a placeholder in the sink.
-/
namespace Gateway.Utf8

/-- A malformed or truncated sequence, with the automaton row it was found in. -/
inductive Error where
  | invalidByte (byte : UInt8) (offset : Nat) (row : UInt8)
  | incompleteSequence (offset : Nat) (row : UInt8)
  | interruptedSequence (row : UInt8)
  deriving DecidableEq, Repr

namespace Error

def row : Error → UInt8
  | .invalidByte _ _ r | .incompleteSequence _ r | .interruptedSequence r => r

def message : Error → String
  | .invalidByte byte offset r =>
    "Not valid UTF8! byte 0x" ++ Text.Hex.upperByte byte ++ " at offset " ++ toString offset
      ++ " in state " ++ toString r.toNat
  | .incompleteSequence offset r =>
    "Not valid UTF8! incomplete UTF8 sequence at offset " ++ toString offset
      ++ " in state " ++ toString r.toNat
  | .interruptedSequence r =>
    "Not valid UTF8! char appended in state " ++ toString r.toNat

end Error
end Gateway.Utf8
