import Gateway.Text.Hex
import Gateway.Text.Printable

/-!
Quoted text for messages: double quotes around it, and inside it an escape for every character
that would not be seen for what it is. A single quote is left alone.
-/
namespace Gateway.Text.Quoted

def encodeChar (c : Char) : List Char :=
  if c = '\x00' then ['\\', '0']
  else if c = '\t' then ['\\', 't']
  else if c = '\r' then ['\\', 'r']
  else if c = '\n' then ['\\', 'n']
  else if c = '\\' then ['\\', '\\']
  else if c = '\x22' then ['\\', '\x22']
  else if isPrintable c && !isCombining c then [c]
  else ['\\', 'u', '\x7b'] ++ Hex.lowerDigits c.toNat ++ ['\x7d']

def encode (cs : List Char) : List Char :=
  '\x22' :: (cs.flatMap encodeChar ++ ['\x22'])

def ofString (s : String) : String := String.ofList (encode s.toList)

end Gateway.Text.Quoted
