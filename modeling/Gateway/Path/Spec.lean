import Gateway.Text.Quoted

/-!
Path specs: what a mapping declares about the request paths it takes. A spec is text turned into
one of five kinds; its display text is the declaration in normal form. Text is held as a list of
characters throughout this folder.
-/
namespace Gateway.Path

/-- Why a declaration is refused. Each cause but the first carries the text it was found in. -/
inductive SpecError where
  | empty
  | badStart (raw : List Char)
  | misplacedWildcard (raw : List Char)
  | badTemplate (raw : List Char)
  deriving DecidableEq, Repr

def SpecError.message : SpecError → String
  | .empty => "empty path spec"
  | .badStart raw =>
    "path spec " ++ String.ofList (Text.Quoted.encode raw) ++ " must start with '/' or '*.'"
  | .misplacedWildcard raw =>
    "path spec " ++ String.ofList (Text.Quoted.encode raw)
      ++ " has a '*' outside a trailing '/*' or leading '*.'"
  | .badTemplate raw =>
    "path spec " ++ String.ofList (Text.Quoted.encode raw) ++ " has a malformed template variable"

inductive Segment where
  | literal (text : List Char)
  | variableName (name : List Char)
  deriving DecidableEq, Repr

inductive Spec where
  | exact (path : List Char)
  /-- A base path and everything below it. The base of `/*` is empty. -/
  | below (base : List Char)
  /-- Any path whose last segment ends in a dot and this extension. -/
  | suffix (extension : List Char)
  | template (declaration : List Char) (segments : List Segment)
  | default
  deriving DecidableEq, Repr

/-- The groups of specs, in the order in which they win. -/
inductive Group where
  | exact
  | uriTemplate
  | prefixGlob
  | suffixGlob
  | default
  deriving DecidableEq, Repr

def Group.rank : Group → Nat
  | .exact => 0
  | .uriTemplate => 1
  | .prefixGlob => 2
  | .suffixGlob => 3
  | .default => 4

namespace Spec

def display : Spec → List Char
  | .exact path => path
  | .below base => base ++ ['/', '*']
  | .suffix extension => '*' :: '.' :: extension
  | .template declaration _ => declaration
  | .default => ['/']

def toString (s : Spec) : String := String.ofList s.display

def group : Spec → Group
  | .exact _ => .exact
  | .template _ _ => .uriTemplate
  | .below _ => .prefixGlob
  | .suffix _ => .suffixGlob
  | .default => .default

end Spec
end Gateway.Path
