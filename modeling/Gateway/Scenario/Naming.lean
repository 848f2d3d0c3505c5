import Gateway.Scenario.World

/-!
Documents about sessions, with their ids replaced by the names that a scenario gives them. Items of
lists are put in the order of those names.
-/
namespace Gateway.Scenario.World

def nameOfId (w : World) (id : String) : String :=
  match (Session.Id.Format.uuid.parse? id.toList).bind fun id =>
      w.names.find? fun entry => (w.hub.session? entry.1).any (·.id == id) with
  | some (_, name) => name
  | none => "?"

def idText (d : Document) : String :=
  match d.entry? "id" with
  | some (.text s) => s
  | _ => ""

mutual

def nameIds (w : World) : Document → Document
  | .list ds => .list ((nameIdsOfItems w ds).mergeSort fun a b => decide (idText a ≤ idText b))
  | .table entries => .table (nameIdsOfEntries w entries)
  | d => d

def nameIdsOfItems (w : World) : List Document → List Document
  | [] => []
  | d :: rest => nameIds w d :: nameIdsOfItems w rest

def nameIdsOfEntries (w : World) : List (String × Document) → List (String × Document)
  | [] => []
  | ("id", .text id) :: rest => ("id", .text (w.nameOfId id)) :: nameIdsOfEntries w rest
  | (key, d) :: rest => (key, nameIds w d) :: nameIdsOfEntries w rest

end

end Gateway.Scenario.World
