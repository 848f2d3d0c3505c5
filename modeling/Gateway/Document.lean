import Gateway.Text.Hex

/-!
Document trees: the common shape of configuration files and of JSON bodies. Tables keep the
order in which their keys were given.
-/
namespace Gateway

inductive Document where
  | null
  | bool (b : Bool)
  | integer (n : Int)
  /-- A number that is not an integer. Nothing reads its value. -/
  | fraction
  | instant
  | text (s : String)
  | list (items : List Document)
  | table (entries : List (String × Document))
  deriving Repr, Inhabited

namespace Document

def ofNat (n : Nat) : Document := .integer n

def ofOption {α : Type} (f : α → Document) : Option α → Document
  | none => .null
  | some a => f a

def entry? (d : Document) (key : String) : Option Document :=
  match d with
  | .table entries => entries.lookup key
  | _ => none

def escapeChar (c : Char) : List Char :=
  if c = '\x22' then ['\\', '\x22']
  else if c = '\\' then ['\\', '\\']
  else if c = '\n' then ['\\', 'n']
  else if c = '\r' then ['\\', 'r']
  else if c = '\t' then ['\\', 't']
  else if c.toNat = 0x8 then ['\\', 'b']
  else if c.toNat = 0xC then ['\\', 'f']
  else if c.toNat < 0x20 then
    ['\\', 'u', '0', '0', Text.Hex.digit false (c.toNat / 16), Text.Hex.digit false c.toNat]
  else [c]

def quoteJson (s : String) : String :=
  String.ofList ('\x22' :: (s.toList.flatMap escapeChar ++ ['\x22']))

mutual

/-- The document as JSON without spaces. A fraction or an instant, which no answer holds, is
written as null. -/
def compact : Document → String
  | .null | .fraction | .instant => "null"
  | .bool b => if b then "true" else "false"
  | .integer n => toString n
  | .text s => quoteJson s
  | .list items => "[" ++ compactItems items ++ "]"
  | .table entries => "\x7b" ++ compactEntries entries ++ "\x7d"

def compactItems : List Document → String
  | [] => ""
  | [d] => d.compact
  | d :: rest => d.compact ++ "," ++ compactItems rest

def compactEntries : List (String × Document) → String
  | [] => ""
  | [(k, d)] => quoteJson k ++ ":" ++ d.compact
  | (k, d) :: rest => quoteJson k ++ ":" ++ d.compact ++ "," ++ compactEntries rest

end

end Document
end Gateway
