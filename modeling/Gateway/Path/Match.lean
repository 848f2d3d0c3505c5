import Gateway.Path.Spec

/-!
Matching a request path against a spec. A match names the part of the path the spec covers, the
rest below a base, and what a template's variables are bound to.
-/
namespace Gateway.Path

structure Match where
  spec : Spec
  path : List Char
  covered : List Char
  /-- What lies below the base, if anything. -/
  info : Option (List Char) := none
  /-- Template variables with their values, in the order of the template. -/
  params : List (List Char × List Char) := []
  deriving DecidableEq, Repr

def Match.param? (m : Match) (name : List Char) : Option (List Char) := m.params.lookup name

/-- Binds segments to the parts of a path. Literals must agree, variables take any part but the
empty one, and neither list may be longer. -/
def bindSegments : List Segment → List (List Char) → Option (List (List Char × List Char))
  | [], [] => some []
  | .literal text :: segments, part :: parts =>
    if text = part then bindSegments segments parts else none
  | .variableName name :: segments, part :: parts =>
    if part.isEmpty then none
    else (bindSegments segments parts).map ((name, part) :: ·)
  | _, _ => none

def lastSegment (path : List Char) : List Char :=
  (path.reverse.takeWhile (· != '/')).reverse

namespace Spec

def matchPath (s : Spec) (path : List Char) : Option Match :=
  match s with
  | .exact declared => if path = declared then some { spec := s, path, covered := path } else none
  | .below base =>
    match base.isPrefixOf? path with
    | some [] => some { spec := s, path, covered := base }
    | some ('/' :: rest) => some { spec := s, path, covered := base, info := some ('/' :: rest) }
    | _ => none
  | .suffix extension =>
    if ('.' :: extension).isSuffixOf (lastSegment path) then
      some { spec := s, path, covered := path }
    else none
  | .template _ segments =>
    match path with
    | '/' :: rest =>
      (bindSegments segments (rest.splitOn '/')).map fun params =>
        { spec := s, path, covered := path, params }
    | _ => none
  | .default => some { spec := s, path, covered := path }

end Spec
end Gateway.Path
