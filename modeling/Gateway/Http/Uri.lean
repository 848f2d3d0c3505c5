import Gateway.Text.Bytes

/-!
Request targets: what a request line or a link names. A target is a path with a query, a star, a
host alone, or a whole link with a scheme. Only its path and query are kept. What follows a hash
is dropped.
-/
namespace Gateway.Http

structure Uri where
  path : List Char
  query : Option (List Char) := none
  deriving DecidableEq, Repr

namespace Uri

def isPathChar (c : Char) : Bool :=
  let n := c.toNat
  0x21 ≤ n && !("#<>?\x60".toList.contains c)

def isQueryChar (c : Char) : Bool :=
  let n := c.toNat
  0x21 ≤ n && !("\x22#<>".toList.contains c)

/-- Drops what follows a hash, if all before it is allowed. -/
def upToHash? (allowed : Char → Bool) : List Char → Option (List Char)
  | [] => some []
  | '#' :: _ => some []
  | c :: rest => if allowed c then (upToHash? allowed rest).map (c :: ·) else none

/-- A path is never empty. -/
def rooted (path : List Char) : List Char := if path.isEmpty then ['/'] else path

def ofPathAndQuery? (cs : List Char) : Option Uri :=
  let path := cs.takeWhile fun c => c != '?' && c != '#'
  if path.all isPathChar then
    match cs.drop path.length with
    | '?' :: rest => (upToHash? isQueryChar rest).map fun q => ⟨rooted path, some q⟩
    | _ => some ⟨rooted path, none⟩
  else none

def isSchemeChar (c : Char) : Bool := c.isAlphanum || c == '+' || c == '-' || c == '.'

def afterScheme? (cs : List Char) : Option (List Char) :=
  let scheme := cs.takeWhile isSchemeChar
  if cs.length ≤ 3 then none
  else "://".toList.isPrefixOf? (cs.drop scheme.length)

def hasLongScheme (cs : List Char) : Bool :=
  (afterScheme? cs).isSome && 64 < (cs.takeWhile isSchemeChar).length

/-- A character that may stand in a host, a port or a user's name. The percent sign is judged on
its own. -/
def isAuthorityChar (c : Char) : Bool :=
  c.isAlphanum || "!$&'()*+,;=-._~:@[]%".toList.contains c

structure Authority where
  colons : Nat := 0
  opened : Bool := false
  closed : Bool := false
  percent : Bool := false
  /-- The character before was the end of a user's name. -/
  bare : Bool := false

/-- Takes one character of a host. Brackets hold a numeric host; what stands before an at sign is
a user's name, and its colons and percent signs do not count. -/
def Authority.push? (a : Authority) (c : Char) : Option Authority :=
  if c = ':' then
    if a.colons < 8 then some { a with colons := a.colons + 1, bare := false } else none
  else if c = '[' then
    if a.percent || a.opened then none else some { a with opened := true, bare := false }
  else if c = ']' then
    if !a.opened || a.closed then none
    else some { a with closed := true, colons := 0, percent := false, bare := false }
  else if c = '@' then some { a with colons := 0, percent := false, bare := true }
  else if c = '%' then some { a with percent := true, bare := false }
  else if isAuthorityChar c then some { a with bare := false }
  else none

def Authority.isWhole (a : Authority) : Bool :=
  a.opened == a.closed && a.colons ≤ 1 && !a.percent && !a.bare

def isAuthority (cs : List Char) : Bool :=
  (cs.foldlM Authority.push? {}).any Authority.isWhole

/-- Reads a target that starts neither with a slash nor is a star. -/
def ofFull? (cs : List Char) : Option Uri :=
  let host (cs : List Char) := cs.takeWhile fun c => c != '/' && c != '?' && c != '#'
  match afterScheme? cs with
  | some rest =>
    if hasLongScheme cs || (host rest).isEmpty || !isAuthority (host rest) then none
    else ofPathAndQuery? (rest.drop (host rest).length)
  | none => if isAuthority cs then some ⟨[], none⟩ else none

def maxLength : Nat := 65534

def parse? (cs : List Char) : Option Uri :=
  if maxLength < Text.byteLength cs then none
  else
    match cs with
    | [] => none
    | ['*'] => some ⟨['*'], none⟩
    | '/' :: _ => ofPathAndQuery? cs
    | _ => ofFull? cs

end Uri
end Gateway.Http
