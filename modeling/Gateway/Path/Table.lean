import Gateway.Path.Match
import Gateway.Path.Order

/-!
A table from path specs to values. Entries stay in order of precedence, so that the first
matching entry is the one that wins. A spec is entered once: a second registration is refused and
leaves the table alone.
-/
namespace Gateway.Path

structure Table (α : Type) where
  entries : List (Spec × α) := []
  deriving Repr, Inhabited

namespace Table
variable {α : Type}

def size (t : Table α) : Nat := t.entries.length

def isEmpty (t : Table α) : Bool := t.entries.isEmpty

def get? (t : Table α) (s : Spec) : Option α :=
  t.entries.findSome? fun (key, value) => if key = s then some value else none

/-- Puts an entry behind those that win over it. -/
def place (s : Spec) (value : α) : List (Spec × α) → List (Spec × α)
  | [] => [(s, value)]
  | (key, v) :: rest =>
    if key.priority s = .lt then (key, v) :: place s value rest
    else (s, value) :: (key, v) :: rest

/-- Registers a value; `none` says that the spec has one already. -/
def insert? (t : Table α) (s : Spec) (value : α) : Option (Table α) :=
  match t.get? s with
  | some _ => none
  | none => some ⟨place s value t.entries⟩

def resolve (t : Table α) (path : List Char) : Option (α × Match) :=
  t.entries.findSome? fun (key, value) => (key.matchPath path).map fun m => (value, m)

end Table

def duplicateMessage (s : Spec) : String := "Duplicate mapping for path spec " ++ s.toString

end Gateway.Path
