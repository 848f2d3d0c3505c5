import Gateway.Text.Reader

/-!
Socket addresses in text: an address of either version, a colon and a port. Version 6 stands in
square brackets, may shorten one run of zeros, may end in a dotted version 4 address and may name
a scope. Every reader here returns what it leaves unread.
-/
namespace Gateway.Net

inductive SocketAddress where
  | v4 (octets : List Nat) (port : Nat)
  | v6 (groups : List Nat) (scope : Nat) (port : Nat)
  deriving DecidableEq, Repr

namespace SocketAddress
open Text (char? spanDigits ofDigits)

def number? (bound : Nat) (cs : List Char) : Option (Nat × List Char) :=
  match spanDigits 10 cs with
  | ([], _) => none
  | (ds, rest) => if ofDigits 10 ds < bound then some (ofDigits 10 ds, rest) else none

/-- A byte of a dotted address: at most three digits, no zero in front of others. -/
def octet? (cs : List Char) : Option (Nat × List Char) :=
  match spanDigits 10 cs with
  | ([], _) => none
  | (0 :: _ :: _, _) => none
  | (ds, rest) =>
    if ds.length ≤ 3 ∧ ofDigits 10 ds < 256 then some (ofDigits 10 ds, rest) else none

def group? (cs : List Char) : Option (Nat × List Char) :=
  match spanDigits 16 cs with
  | ([], _) => none
  | (ds, rest) => if ds.length ≤ 4 then some (ofDigits 16 ds, rest) else none

def dotted? (cs : List Char) : Option (List Nat × List Char) := do
  let (a, cs) ← octet? cs
  let (b, cs) ← octet? (← char? '.' cs)
  let (c, cs) ← octet? (← char? '.' cs)
  let (d, cs) ← octet? (← char? '.' cs)
  return ([a, b, c, d], cs)

/-- What separates a group from the one before it; the first group has nothing in front. -/
def separated? (first : Bool) (cs : List Char) : Option (List Char) :=
  if first then some cs else char? ':' cs

/-- Reads at most `room` groups. A dotted address counts for two groups and ends the run. The flag
says whether the run ended in one. -/
def groups (first : Bool) : Nat → List Char → (List Nat × Bool) × List Char
  | 0, cs => (([], false), cs)
  | room + 1, cs =>
    let dottedEnd :=
      if 0 < room then (separated? first cs).bind dotted? else none
    match dottedEnd with
    | some ([a, b, c, d], rest) => (([a * 256 + b, c * 256 + d], true), rest)
    | _ =>
      match (separated? first cs).bind group? with
      | some (g, rest) =>
        let ((gs, dotted), rest) := groups false room rest
        ((g :: gs, dotted), rest)
      | none => (([], false), cs)

/-- A version 6 address. A double colon stands for at least one group of zero. -/
def address6? (cs : List Char) : Option (List Nat × List Char) :=
  match groups true 8 cs with
  | ((head, dotted), rest) =>
    if head.length = 8 then some (head, rest)
    else if dotted then none
    else do
      let rest ← char? ':' (← char? ':' rest)
      let ((tail, _), rest) := groups true (7 - head.length) rest
      return (head ++ List.replicate (8 - head.length - tail.length) 0 ++ tail, rest)

def scope? (cs : List Char) : Option (Nat × List Char) :=
  match cs with
  | '%' :: rest => number? (Nat.pow 2 32) rest
  | _ => some (0, cs)

def port? (cs : List Char) : Option Nat := do
  match ← number? 65536 (← char? ':' cs) with
  | (port, []) => some port
  | _ => none

def parseV4 (cs : List Char) : Option SocketAddress := do
  let (octets, cs) ← dotted? cs
  return .v4 octets (← port? cs)

def parseV6 (cs : List Char) : Option SocketAddress := do
  let (groups, cs) ← address6? (← char? '[' cs)
  let (scope, cs) ← scope? cs
  return .v6 groups scope (← port? (← char? ']' cs))

def parse (cs : List Char) : Option SocketAddress := parseV4 cs <|> parseV6 cs

end SocketAddress
end Gateway.Net
