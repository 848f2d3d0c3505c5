import Gateway.Session.Id

/-!
The usual format of ids: five groups of hexadecimal digits with hyphens between them. Reading also
takes the number in its other common forms, in digits of either case.
-/
namespace Gateway.Session.Id

def groupLengths : List Nat := [8, 4, 4, 4, 12]

/-- The last digits of a number, high first. -/
def hexDigits : Nat → Nat → List Char
  | 0, _ => []
  | count + 1, n => hexDigits count (n / 16) ++ [Text.Hex.digit false n]

def hyphenate : List Nat → List Char → List Char
  | [], _ => []
  | [n], cs => cs.take n
  | n :: ns, cs => cs.take n ++ '-' :: hyphenate ns (cs.drop n)

def bare (id : Id) : List Char := hyphenate groupLengths (hexDigits 32 id.toNat)

/-- Takes out the hyphens, each of which must stand in its place. -/
def unhyphenate : List Nat → List Char → Option (List Char)
  | [], cs => if cs.isEmpty then some [] else none
  | [n], cs => if cs.length = n then some cs else none
  | n :: ns, cs =>
    match cs.drop n with
    | '-' :: rest => (unhyphenate ns rest).map (cs.take n ++ ·)
    | _ => none

def ofDigits? (cs : List Char) : Option Id :=
  if cs.length = 32 then
    (cs.mapM (Text.digit? 16)).map fun ds => BitVec.ofNat 128 (Text.ofDigits 16 ds)
  else none

def ofHyphenated? (cs : List Char) : Option Id := (unhyphenate groupLengths cs).bind ofDigits?

def lower (c : Char) : Char := c.toLower

/-- What stands in front of an id in its form as a name; letters of either case. -/
def urnMark : List Char := "urn:uuid:".toList

/-- Reads a bare id: 32 digits, the hyphenated form, that form in braces, or that form as a
name. -/
def ofBare? (cs : List Char) : Option Id :=
  if cs.length = 32 then ofDigits? cs
  else if cs.length = 36 then ofHyphenated? cs
  else if cs.length = 38 then
    match cs with
    | '{' :: rest => (['}'].isSuffixOf? rest).bind ofHyphenated?
    | _ => none
  else if cs.length = 45 then
    if (cs.take 9).map lower = urnMark then ofHyphenated? (cs.drop 9) else none
  else none

def Format.uuid : Format := ⟨bare, ofBare?⟩

end Gateway.Session.Id
