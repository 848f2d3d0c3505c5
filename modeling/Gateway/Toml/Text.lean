import Gateway.Text.Reader

/-!
The characters, strings and keys of TOML. Every reader returns what it leaves unread, and refuses
by `none`.
-/
namespace Gateway.Toml
open Text (Reader)

def isSpace (c : Char) : Bool := c == ' ' || c == '\t'

def skipSpaces (cs : List Char) : List Char := cs.dropWhile isSpace

def newline? : List Char → Option (List Char)
  | '\n' :: rest => some rest
  | '\r' :: '\n' :: rest => some rest
  | _ => none

def isPlain (c : Char) : Bool := c == '\t' || (0x20 ≤ c.toNat && c.toNat != 0x7F)

def skipComment (cs : List Char) : List Char :=
  match cs with
  | '#' :: rest => rest.dropWhile isPlain
  | _ => cs

/-- What may follow a statement on its line: spaces, a comment, then the end of line or text. -/
def endOfLine? (cs : List Char) : Option (List Char) :=
  match skipComment (skipSpaces cs) with
  | [] => some []
  | rest => newline? rest

/-- Drops spaces, line ends and comments, as between the items of a list. `fuel` bounds the number
of lines. -/
def skipLines : Nat → List Char → List Char
  | 0, cs => cs
  | fuel + 1, cs =>
    let rest := skipComment (skipSpaces cs)
    match newline? rest with
    | some rest => skipLines fuel rest
    | none => rest

def scalarDigits? (count : Nat) (cs : List Char) : Option (Char × List Char) := do
  let digits ← (cs.take count).mapM (Text.digit? 16)
  let n := Text.ofDigits 16 digits
  if digits.length = count ∧ n.isValidChar then some (Char.ofNat n, cs.drop count) else none

def escape? : Reader Char
  | 'b' :: rest => some (Char.ofNat 0x8, rest)
  | 't' :: rest => some ('\t', rest)
  | 'n' :: rest => some ('\n', rest)
  | 'f' :: rest => some (Char.ofNat 0xC, rest)
  | 'r' :: rest => some ('\r', rest)
  | '\x22' :: rest => some ('\x22', rest)
  | '\\' :: rest => some ('\\', rest)
  | 'u' :: rest => scalarDigits? 4 rest
  | 'U' :: rest => scalarDigits? 8 rest
  | _ => none

/-- A backslash at the end of a line drops the line end and all blanks behind it. -/
def lineContinuation? (fuel : Nat) (cs : List Char) : Option (List Char) :=
  (newline? (skipSpaces cs)).map (blanks fuel)
where
  blanks : Nat → List Char → List Char
    | 0, cs => cs
    | fuel + 1, cs =>
      match newline? (skipSpaces cs) with
      | some rest => blanks fuel rest
      | none => skipSpaces cs

def basicRest : Nat → Reader (List Char)
  | 0, _ => none
  | _ + 1, [] => none
  | _ + 1, '\x22' :: rest => some ([], rest)
  | fuel + 1, '\\' :: rest => do
    let (c, rest) ← escape? rest
    let (cs, rest) ← basicRest fuel rest
    return (c :: cs, rest)
  | fuel + 1, c :: rest =>
    if isPlain c then (basicRest fuel rest).map fun (cs, rest) => (c :: cs, rest) else none

def literalRest : Reader (List Char)
  | [] => none
  | '\'' :: rest => some ([], rest)
  | c :: rest =>
    if isPlain c then (literalRest rest).map fun (cs, rest) => (c :: cs, rest) else none

/-- The end of a string in triple quotes: one or two more quotes right before it belong to the
text. -/
def closing? (quote : Char) (cs : List Char) : Option (List Char × List Char) :=
  let quotes := (cs.takeWhile (· == quote)).length
  if quotes < 3 then none
  else
    let inside := min (quotes - 3) 2
    some (List.replicate inside quote, cs.drop (inside + 3))

/-- The rest of a basic string in triple quotes. Line ends become line feeds. -/
def multiBasicRest : Nat → Reader (List Char)
  | 0, _ => none
  | fuel + 1, cs =>
    match closing? '\x22' cs with
    | some done => some done
    | none =>
      match newline? cs with
      | some rest => (multiBasicRest fuel rest).map fun (cs, rest) => ('\n' :: cs, rest)
      | none =>
        match cs with
        | [] => none
        | '\\' :: rest =>
          match lineContinuation? fuel rest with
          | some rest => multiBasicRest fuel rest
          | none => do
            let (c, rest) ← escape? rest
            let (cs, rest) ← multiBasicRest fuel rest
            return (c :: cs, rest)
        | c :: rest =>
          if isPlain c then (multiBasicRest fuel rest).map fun (cs, rest) => (c :: cs, rest)
          else none

def multiLiteralRest : Nat → Reader (List Char)
  | 0, _ => none
  | fuel + 1, cs =>
    match closing? '\'' cs with
    | some done => some done
    | none =>
      match newline? cs with
      | some rest => (multiLiteralRest fuel rest).map fun (cs, rest) => ('\n' :: cs, rest)
      | none =>
        match cs with
        | [] => none
        | c :: rest =>
          if isPlain c then (multiLiteralRest fuel rest).map fun (cs, rest) => (c :: cs, rest)
          else none

/-- A line end right after opening triple quotes is not part of the text. -/
def skipFirstNewline (cs : List Char) : List Char := (newline? cs).getD cs

def string? (cs : List Char) : Option (String × List Char) :=
  let read : Option (List Char × List Char) :=
    match cs with
    | '\x22' :: '\x22' :: '\x22' :: rest => multiBasicRest (rest.length + 1) (skipFirstNewline rest)
    | '\'' :: '\'' :: '\'' :: rest => multiLiteralRest (rest.length + 1) (skipFirstNewline rest)
    | '\x22' :: rest => basicRest (rest.length + 1) rest
    | '\'' :: rest => literalRest rest
    | _ => none
  read.map fun (text, rest) => (String.ofList text, rest)

def isBareKey (c : Char) : Bool :=
  c.isAlphanum || c == '-' || c == '_'

/-- One part of a key. Quoted parts are strings on one line. -/
def simpleKey? (cs : List Char) : Option (String × List Char) :=
  match cs with
  | '\x22' :: rest =>
    (basicRest (rest.length + 1) rest).map fun (k, rest) => (String.ofList k, rest)
  | '\'' :: rest => (literalRest rest).map fun (k, rest) => (String.ofList k, rest)
  | _ =>
    match cs.takeWhile isBareKey with
    | [] => none
    | k => some (String.ofList k, cs.dropWhile isBareKey)

def maxKeyParts : Nat := 79

/-- A key: parts with dots between them and spaces around each. `fuel` bounds the parts. -/
def key? : Nat → Reader (List String)
  | 0, _ => none
  | fuel + 1, cs => do
    let (part, rest) ← simpleKey? (skipSpaces cs)
    match skipSpaces rest with
    | '.' :: rest =>
      let (parts, rest) ← key? fuel rest
      return (part :: parts, rest)
    | rest => return ([part], rest)

end Gateway.Toml
