import Gateway.Config.Session

/-!
The configuration of a whole server. Every part has defaults; a mapping must name its path spec
and its endpoint.
-/
namespace Gateway.Config

structure ListenerConfig where
  bindAddress : String := "0.0.0.0:8080"
  shutdownGraceSecs : Nat := 5
  deriving DecidableEq, Repr, Inhabited

structure MappingConfig where
  pathSpec : String
  endpoint : String
  overrides : Overrides := {}
  deriving DecidableEq, Repr, Inhabited

structure ObservabilityConfig where
  logLevel : String := "info"
  jsonLogs : Bool := false
  metricsEnabled : Bool := false
  metricsAddress : String := "0.0.0.0:9090"
  deriving DecidableEq, Repr, Inhabited

structure AdminConfig where
  enabled : Bool := false
  apiKey : String := ""
  bindAddress : String := "127.0.0.1:8081"
  deriving DecidableEq, Repr, Inhabited

structure ServerConfig where
  listener : ListenerConfig := {}
  websocket : SessionConfig := {}
  mappings : List MappingConfig := []
  observability : ObservabilityConfig := {}
  admin : AdminConfig := {}
  deriving DecidableEq, Repr, Inhabited

/-- A mapping's own settings stand beside its path spec and endpoint, not below a key. -/
def MappingConfig.toDocument (m : MappingConfig) : Document :=
  .table ([("path_spec", .text m.pathSpec), ("endpoint", .text m.endpoint)]
    ++ m.overrides.entries)

def ServerConfig.toDocument (c : ServerConfig) : Document := .table [
  ("listener", .table [
    ("bind_address", .text c.listener.bindAddress),
    ("shutdown_grace_secs", .ofNat c.listener.shutdownGraceSecs)]),
  ("websocket", c.websocket.toDocument),
  ("mappings", .list (c.mappings.map MappingConfig.toDocument)),
  ("observability", .table [
    ("log_level", .text c.observability.logLevel),
    ("json_logs", .bool c.observability.jsonLogs),
    ("metrics_enabled", .bool c.observability.metricsEnabled),
    ("metrics_address", .text c.observability.metricsAddress)]),
  ("admin", .table [
    ("enabled", .bool c.admin.enabled),
    ("api_key", .text c.admin.apiKey),
    ("bind_address", .text c.admin.bindAddress)])]

end Gateway.Config
