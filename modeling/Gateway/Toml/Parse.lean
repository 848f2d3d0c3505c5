import Gateway.Toml.Scalar
import Gateway.Toml.Tree

/-!
Reading a whole TOML document. A document is a list of statements, one a line: a value under a
key, a header that opens a table, or a header in double brackets that adds one. The reader gives a
document or nothing; it does not say what is wrong.
-/
namespace Gateway.Toml
open Text (char?)

mutual

/-- A value. `depth` bounds how many lists and inline tables may still be opened, `fuel` the
number of steps. -/
def value? : Nat → Nat → List Char → Option (Document × List Char)
  | 0, _, _ => none
  | fuel + 1, depth, cs =>
    match cs with
    | '[' :: rest =>
      match depth with
      | 0 => none
      | depth + 1 => (items? fuel depth rest).map fun (ds, rest) => (.list ds, rest)
    | '{' :: rest =>
      match depth with
      | 0 => none
      | depth + 1 =>
        match skipSpaces rest with
        | '}' :: rest => some (.table [], rest)
        | rest => (pairs? fuel depth Node.emptyTable rest).map fun (n, rest) =>
            (n.toDocument, rest)
    | '\x22' :: _ | '\'' :: _ => (string? cs).map fun (s, rest) => (.text s, rest)
    | _ => scalar? cs

/-- The items of a list up to its bracket. Line ends and comments may stand anywhere between, and
a comma behind the last item. -/
def items? : Nat → Nat → List Char → Option (List Document × List Char)
  | 0, _, _ => none
  | fuel + 1, depth, cs =>
    match skipLines cs.length cs with
    | ']' :: rest => some ([], rest)
    | rest => do
      let (d, rest) ← value? fuel depth rest
      match skipLines rest.length rest with
      | ',' :: rest =>
        let (ds, rest) ← items? fuel depth rest
        return (d :: ds, rest)
      | ']' :: rest => return ([d], rest)
      | _ => none

/-- The pairs of an inline table up to its brace, on one line and without a comma at the end. -/
def pairs? : Nat → Nat → Node → List Char → Option (Node × List Char)
  | 0, _, _, _ => none
  | fuel + 1, depth, node, cs => do
    let (key, rest) ← key? maxKeyParts cs
    let (d, rest) ← value? fuel depth (skipSpaces (← char? '=' rest))
    let node ← node.setValue key (.leaf d)
    match skipSpaces rest with
    | ',' :: rest => pairs? fuel depth node rest
    | '}' :: rest => return (node, rest)
    | _ => none

end

def maxDepth : Nat := 79

/-- The state between statements: the tree, and the key of the last header. -/
structure Progress where
  root : Node := .emptyTable
  header : List String := []

def statement? (p : Progress) (cs : List Char) : Option (Progress × List Char) :=
  match cs with
  | '[' :: '[' :: rest => do
    let (key, rest) ← key? maxKeyParts rest
    let rest ← endOfLine? (← char? ']' (← char? ']' rest))
    return ({ root := ← p.root.appendTable key, header := key }, rest)
  | '[' :: rest => do
    let (key, rest) ← key? maxKeyParts rest
    let rest ← endOfLine? (← char? ']' rest)
    return ({ root := ← p.root.openTable key, header := key }, rest)
  | _ => do
    let (key, rest) ← key? maxKeyParts cs
    let (d, rest) ← value? cs.length maxDepth (skipSpaces (← char? '=' rest))
    let rest ← endOfLine? rest
    return ({ p with root := ← p.root.setBelow p.header key (.leaf d) }, rest)

def statements? : Nat → Progress → List Char → Option Progress
  | 0, _, _ => none
  | fuel + 1, p, cs =>
    match skipLines cs.length cs with
    | [] => some p
    | rest => do
      let (p, rest) ← statement? p rest
      statements? fuel p rest

/-- Reads a document. A byte order mark in front is dropped. -/
def parse? (text : String) : Option Document :=
  let cs := match text.toList with
    | c :: rest => if c.toNat = 0xFEFF then rest else c :: rest
    | [] => []
  (statements? (cs.length + 1) {} cs).map fun p => p.root.toDocument

end Gateway.Toml
