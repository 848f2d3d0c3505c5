import Gateway.Document

/-!
The tree a TOML document builds up. A table remembers how it came to be: by a header or a closed
value, by being named on the way to another table, or by a dotted key. That decides whether it may
be opened again.
-/
namespace Gateway.Toml

inductive Node where
  | leaf (d : Document)
  /-- `implied`: named on the way to something else. `dotted`: made by a dotted key. -/
  | table (implied dotted : Bool) (entries : List (String × Node))
  | tables (items : List Node)
  deriving Inhabited

namespace Node

def emptyTable : Node := .table false false []

def putEntry (key : String) (node : Node) : List (String × Node) → List (String × Node)
  | [] => [(key, node)]
  | (k, n) :: rest => if k = key then (key, node) :: rest else (k, n) :: putEntry key node rest

def onLast? (f : Node → Option Node) : List Node → Option (List Node)
  | [] => none
  | [n] => (f n).map ([·])
  | n :: rest => (onLast? f rest).map (n :: ·)

/-- Changes the table at the end of a path. Missing tables on the way are made, as implied ones.
Of tables that share a name the last is meant. A dotted path opens no table that stands by
itself. -/
def modifyAt (dotted : Bool) (f : Node → Option Node) : List String → Node → Option Node
  | [], node => f node
  | key :: path, .table implied d entries =>
    match entries.lookup key with
    | none => do
      let child ← modifyAt dotted f path (.table true dotted [])
      return .table implied d (entries ++ [(key, child)])
    | some (.leaf _) => none
    | some (.tables items) => do
      let items ← onLast? (modifyAt dotted f path) items
      return .table implied d (putEntry key (.tables items) entries)
    | some (.table childImplied childDotted childEntries) =>
      if dotted && !childImplied then none
      else do
        let child ← modifyAt dotted f path (.table childImplied childDotted childEntries)
        return .table implied d (putEntry key child entries)
  | _ :: _, _ => none

/-- Adds an entry under a key that is still free. A table reached through a dotted path must have
been made by one, and the table itself must not. -/
def addEntry (throughPath : Bool) (key : String) (node : Node) : Node → Option Node
  | .table implied dotted entries =>
    if dotted != throughPath then none
    else
      match entries.lookup key with
      | some _ => none
      | none => some (.table implied dotted (entries ++ [(key, node)]))
  | _ => none

def setValue (root : Node) (key : List String) (node : Node) : Option Node :=
  match key.getLast? with
  | none => none
  | some last =>
    root.modifyAt true (addEntry (1 < key.length) last node) key.dropLast

/-- Opens the table that a header names. It may have been implied, but by no dotted key. -/
def openTable (root : Node) (key : List String) : Option Node :=
  match key.getLast? with
  | none => none
  | some last =>
    root.modifyAt false (fun
      | .table implied dotted entries =>
        match entries.lookup last with
        | none => some (.table implied dotted (entries ++ [(last, emptyTable)]))
        | some (.table true false inner) =>
          some (.table implied dotted (putEntry last (.table false false inner) entries))
        | some _ => none
      | _ => none) key.dropLast

def appendTable (root : Node) (key : List String) : Option Node :=
  match key.getLast? with
  | none => none
  | some last =>
    root.modifyAt false (fun
      | .table implied dotted entries =>
        match entries.lookup last with
        | none => some (.table implied dotted (entries ++ [(last, .tables [emptyTable])]))
        | some (.tables items) =>
          some (.table implied dotted (putEntry last (.tables (items ++ [emptyTable])) entries))
        | some _ => none
      | _ => none) key.dropLast

def setBelow (root : Node) (header key : List String) (node : Node) : Option Node :=
  root.modifyAt false (fun table => table.setValue key node) header

mutual

def toDocument : Node → Document
  | .leaf d => d
  | .table _ _ entries => .table (entriesToDocument entries)
  | .tables items => .list (itemsToDocument items)

def entriesToDocument : List (String × Node) → List (String × Document)
  | [] => []
  | (key, node) :: rest => (key, node.toDocument) :: entriesToDocument rest

def itemsToDocument : List Node → List Document
  | [] => []
  | node :: rest => node.toDocument :: itemsToDocument rest

end

end Node
end Gateway.Toml
