import Gateway.Path.Parse
import Gateway.Path.Table
import Gateway.Upgrade.Creator

/-!
Containers: the mappings of a server, each with its creator and the policy its sessions start
from. A mapping's policy is fixed when it is added; later edits of the defaults do not reach it.
-/
namespace Gateway.Upgrade

structure Negotiator where
  spec : Path.Spec
  creator : Creator
  config : Config.SessionConfig

inductive MappingError where
  | duplicate (spec : Path.Spec)
  | invalidSpec (source : Path.SpecError)
  deriving DecidableEq, Repr

def MappingError.message : MappingError → String
  | .duplicate spec => "Duplicate WebSocket mapping for path spec " ++ spec.toString
  | .invalidSpec source => "Invalid path spec: " ++ source.message

/-- A container; while it is set up, its defaults can be edited and mappings can be added. -/
structure Container where
  defaults : Config.SessionConfig := {}
  negotiators : Path.Table Negotiator := {}

namespace Container

/-- Adds a mapping for a spec. A refused mapping changes nothing. -/
def register? (c : Container) (spec : Path.Spec) (creator : Creator) (o : Config.Overrides) :
    Except MappingError Container :=
  match c.negotiators.insert? spec { spec, creator, config := c.defaults.customized o } with
  | some negotiators => .ok { c with negotiators }
  | none => .error (.duplicate spec)

def addMapping? (c : Container) (declaration : String) (creator : Creator)
    (o : Config.Overrides) : Except MappingError Container :=
  match Path.Spec.parse declaration.toList with
  | .ok spec => c.register? spec creator o
  | .error source => .error (.invalidSpec source)

def registration (spec : Path.Spec) : Log.Line :=
  ⟨.debug, "Registered WebSocket mapping", [("path_spec", .text spec.toString)]⟩

def readiness (c : Container) : Log.Line :=
  ⟨.info, "WebSocket container ready", [("mappings", .number c.negotiators.size)]⟩

def resolve (c : Container) (path : String) : Option (Negotiator × Path.Match) :=
  c.negotiators.resolve path.toList

end Container
end Gateway.Upgrade
