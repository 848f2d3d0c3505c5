import Gateway.Path.Spec

/-!
Reading a path spec. A leading `uri-template|` is dropped once; what is left decides the kind. A
text with a brace is a template or nothing.
-/
namespace Gateway.Path

/-- An optional mark in front of a declaration. It changes nothing. -/
def templateMark : List Char := "uri-template|".toList

def dropMark (declaration : List Char) : List Char :=
  (templateMark.isPrefixOf? declaration).getD declaration

def isBrace (c : Char) : Bool := c == '{' || c == '}'

/-- Reads one segment of a template. A segment that opens with a brace must be a whole variable. -/
def parseSegment : List Char → Option Segment
  | '{' :: inner =>
    match ['}'].isSuffixOf? inner with
    | some name => if name.isEmpty || name.any isBrace then none else some (.variableName name)
    | none => none
  | part => if part.any fun c => isBrace c || c == '*' then none else some (.literal part)

/-- Reads segments in order, refusing a variable named before. `seen` holds those read so far. -/
def parseSegments (seen : List Segment) : List (List Char) → Option (List Segment)
  | [] => some seen
  | part :: rest =>
    match parseSegment part with
    | some (.variableName name) =>
      if (.variableName name) ∈ seen then none
      else parseSegments (seen ++ [.variableName name]) rest
    | some (.literal text) => parseSegments (seen ++ [.literal text]) rest
    | none => none

def parseTemplate (raw : List Char) : Except SpecError Spec :=
  match raw with
  | '/' :: rest =>
    match parseSegments [] (rest.splitOn '/') with
    | some segments => .ok (.template raw segments)
    | none => .error (.badTemplate raw)
  | _ => .error (.badStart raw)

/-- Reads a declaration without braces that starts with a slash and is not `/` alone. -/
def parsePath (raw : List Char) : Except SpecError Spec :=
  match ['/', '*'].isSuffixOf? raw with
  | some base => if '*' ∈ base then .error (.misplacedWildcard raw) else .ok (.below base)
  | none => if '*' ∈ raw then .error (.misplacedWildcard raw) else .ok (.exact raw)

def Spec.parse (declaration : List Char) : Except SpecError Spec :=
  let raw := dropMark declaration
  if raw.isEmpty then .error .empty
  else if raw.any isBrace then parseTemplate raw
  else
    match raw with
    | ['/'] => .ok .default
    | '*' :: '.' :: extension =>
      if extension.isEmpty || '/' ∈ extension || '*' ∈ extension then
        .error (.misplacedWildcard raw)
      else .ok (.suffix extension)
    | '/' :: _ => parsePath raw
    | _ => .error (.badStart raw)

end Gateway.Path
