import Gateway.Config.Server
import Gateway.Hub.Basic
import Gateway.Upgrade.Container

/-!
Starting a server from its configuration: every mapping gets the creator of its built-in endpoint,
and a listener that keeps the log is registered. The first mapping that cannot be had ends the
start.
-/
namespace Gateway

inductive StartupError where
  | unknownEndpoint (index : Nat) (endpoint : String)
  | mapping (index : Nat) (source : Upgrade.MappingError)
  deriving DecidableEq, Repr

def StartupError.message : StartupError → String
  | .unknownEndpoint index endpoint =>
    "mapping " ++ toString index ++ ": unknown endpoint " ++ Text.Quoted.ofString endpoint
  | .mapping index source => "mapping " ++ toString index ++ ": " ++ source.message

namespace Startup

def mapped (m : Config.MappingConfig) : Log.Line :=
  ⟨.info, "Mapped endpoint", [("endpoint", .text m.endpoint), ("path_spec", .text m.pathSpec)]⟩

/-- Adds one mapping, whose endpoints live in the rooms of a registry. The endpoint is looked up
before the spec is read. -/
def addMapping (registry index : Nat) (c : Upgrade.Container) (m : Config.MappingConfig) :
    Except StartupError (Upgrade.Container × Path.Spec) :=
  match Upgrade.Creator.named? m.endpoint registry with
  | none => .error (.unknownEndpoint index m.endpoint)
  | some creator =>
    match Path.Spec.parse m.pathSpec.toList with
    | .error source => .error (.mapping index (.invalidSpec source))
    | .ok spec =>
      match c.register? spec creator m.overrides with
      | .error source => .error (.mapping index source)
      | .ok c => .ok (c, spec)

/-- Adds mappings from an index on, up to the first that cannot be had. The mappings that were
added are listed. -/
def addMappings (registry index : Nat) (c : Upgrade.Container) :
    List Config.MappingConfig →
      List (Path.Spec × Config.MappingConfig) × Except StartupError Upgrade.Container
  | [] => ([], .ok c)
  | m :: rest =>
    match addMapping registry index c m with
    | .error e => ([], .error e)
    | .ok (c, spec) =>
      let (added, result) := addMappings registry (index + 1) c rest
      ((spec, m) :: added, result)

def container (registry : Nat) (config : Config.ServerConfig) :
    List (Path.Spec × Config.MappingConfig) × Except StartupError Upgrade.Container :=
  addMappings registry 0 { defaults := config.websocket } config.mappings

/-- Starts a server on a fresh registry. If it cannot be started, the old registry stays. -/
def build (h : Hub) (config : Config.ServerConfig) :
    Hub × Except StartupError Upgrade.Container :=
  let fresh := h.renewRegistry
  let fresh := { fresh with registry := fresh.registry.enlist .logging }
  let (added, result) := container fresh.registry.serial config
  let lines := added.flatMap fun (spec, m) => [Upgrade.Container.registration spec, mapped m]
  let journal := h.journal ++ lines.map Entry.line
  match result with
  | .error e => ({ h with journal }, .error e)
  | .ok c => ({ fresh with journal := journal ++ [.line c.readiness] }, .ok c)

end Startup
end Gateway
