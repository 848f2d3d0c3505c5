import Gateway.Config.Server

/-!
Reading configurations out of documents. A record is a table, read by key with unknown keys
passed over, or a list, read by position; an instant is a record of which no field is known. A
field that is left out keeps its default; a field of the wrong shape refuses the whole document.
-/
namespace Gateway.Config

/-- What a list longer than a record means depends on the format the document came from. -/
inductive Surplus where
  | refused
  | ignored
  deriving DecidableEq, Repr

namespace Reader

/-- An integer of at most 64 bits without sign. -/
def natural? : Document → Option Nat
  | .integer n => if 0 ≤ n ∧ n < 18446744073709551616 then some n.toNat else none
  | _ => none

def flag? : Document → Option Bool
  | .bool b => some b
  | _ => none

def text? : Document → Option String
  | .text s => some s
  | _ => none

def optional? {α : Type} (f : Document → Option α) : Document → Option (Option α)
  | .null => some none
  | d => (f d).map some

def fields? (surplus : Surplus) (names : List String) :
    Document → Option (String → Option Document)
  | .table entries => some fun name => entries.lookup name
  | .list items =>
    if surplus = .refused ∧ names.length < items.length then none
    else some fun name => (names.zip items).lookup name
  | .instant => some fun _ => none
  | _ => none

def fieldOr {α : Type} (f : Document → Option α) (default : α) (d : Option Document) : Option α :=
  match d with
  | none => some default
  | some d => f d

/-- The names of a policy's fields, in the order of a list that gives them by position. -/
def sessionFields : List String :=
  ["idle_timeout_secs", "input_buffer_size", "output_buffer_size", "max_text_message_size",
    "max_binary_message_size", "max_frame_size", "auto_fragment"]

def overridesFrom (get : String → Option Document) : Option Overrides := do
  let number name := fieldOr (optional? natural?) none (get name)
  return {
    idleTimeoutSecs := ← number "idle_timeout_secs"
    inputBufferSize := ← number "input_buffer_size"
    outputBufferSize := ← number "output_buffer_size"
    maxTextMessageSize := ← number "max_text_message_size"
    maxBinaryMessageSize := ← number "max_binary_message_size"
    maxFrameSize := ← number "max_frame_size"
    autoFragment := ← fieldOr (optional? flag?) none (get "auto_fragment") }

end Reader

open Reader

def Overrides.ofDocument? (surplus : Surplus) (d : Document) : Option Overrides := do
  overridesFrom (← fields? surplus sessionFields d)

def SessionConfig.ofDocument? (surplus : Surplus) (d : Document) : Option SessionConfig := do
  let get ← fields? surplus sessionFields d
  let base : SessionConfig := {}
  let number name default := fieldOr natural? default (get name)
  return {
    idleTimeoutSecs := ← number "idle_timeout_secs" base.idleTimeoutSecs
    inputBufferSize := ← number "input_buffer_size" base.inputBufferSize
    outputBufferSize := ← number "output_buffer_size" base.outputBufferSize
    maxTextMessageSize := ← number "max_text_message_size" base.maxTextMessageSize
    maxBinaryMessageSize := ← number "max_binary_message_size" base.maxBinaryMessageSize
    maxFrameSize := ← number "max_frame_size" base.maxFrameSize
    autoFragment := ← fieldOr flag? base.autoFragment (get "auto_fragment") }

def ListenerConfig.ofDocument? (surplus : Surplus) (d : Document) : Option ListenerConfig := do
  let get ← fields? surplus ["bind_address", "shutdown_grace_secs"] d
  let base : ListenerConfig := {}
  return {
    bindAddress := ← fieldOr text? base.bindAddress (get "bind_address")
    shutdownGraceSecs := ← fieldOr natural? base.shutdownGraceSecs (get "shutdown_grace_secs") }

/-- A mapping is always a table, because its overrides stand among its own keys. -/
def MappingConfig.ofDocument? : Document → Option MappingConfig
  | .table entries => do
    let get name := entries.lookup name
    return {
      pathSpec := ← text? (← get "path_spec")
      endpoint := ← text? (← get "endpoint")
      overrides := ← overridesFrom get }
  | _ => none

def ObservabilityConfig.ofDocument? (surplus : Surplus) (d : Document) :
    Option ObservabilityConfig := do
  let get ← fields? surplus ["log_level", "json_logs", "metrics_enabled", "metrics_address"] d
  let base : ObservabilityConfig := {}
  return {
    logLevel := ← fieldOr text? base.logLevel (get "log_level")
    jsonLogs := ← fieldOr flag? base.jsonLogs (get "json_logs")
    metricsEnabled := ← fieldOr flag? base.metricsEnabled (get "metrics_enabled")
    metricsAddress := ← fieldOr text? base.metricsAddress (get "metrics_address") }

def AdminConfig.ofDocument? (surplus : Surplus) (d : Document) : Option AdminConfig := do
  let get ← fields? surplus ["enabled", "api_key", "bind_address"] d
  let base : AdminConfig := {}
  return {
    enabled := ← fieldOr flag? base.enabled (get "enabled")
    apiKey := ← fieldOr text? base.apiKey (get "api_key")
    bindAddress := ← fieldOr text? base.bindAddress (get "bind_address") }

def mappings? : Document → Option (List MappingConfig)
  | .list items => items.mapM MappingConfig.ofDocument?
  | _ => none

def ServerConfig.ofDocument? (surplus : Surplus) (d : Document) : Option ServerConfig := do
  let get ← fields? surplus ["listener", "websocket", "mappings", "observability", "admin"] d
  return {
    listener := ← fieldOr (ListenerConfig.ofDocument? surplus) {} (get "listener")
    websocket := ← fieldOr (SessionConfig.ofDocument? surplus) {} (get "websocket")
    mappings := ← fieldOr mappings? [] (get "mappings")
    observability := ← fieldOr (ObservabilityConfig.ofDocument? surplus) {} (get "observability")
    admin := ← fieldOr (AdminConfig.ofDocument? surplus) {} (get "admin") }

end Gateway.Config
