import Gateway.Config.Server
import Gateway.Net.SocketAddress
import Gateway.Path.Parse
import Gateway.Text.Blank

/-!
Checking a configuration that has been read. Every violated rule is reported, in a fixed order:
addresses and key, the sizes of the common policy, then mapping by mapping. A configuration with
no error is accepted.
-/
namespace Gateway.Config

inductive ValidationError where
  | invalidPathSpec (index : Nat) (spec : String) (source : Path.SpecError)
  | duplicatePathSpec (index : Nat) (spec : Path.Spec)
  | unknownEndpoint (index : Nat) (endpoint : String)
  | zeroSize (scope : String) (field : String)
  | frameExceedsMessage (scope : String) (frame message : Nat)
  | missingAdminKey
  | invalidAddress (field : String) (value : String)
  deriving DecidableEq, Repr

namespace ValidationError

def message : ValidationError → String
  | .invalidPathSpec index spec source =>
    "mapping " ++ toString index ++ ": invalid path spec " ++ Text.Quoted.ofString spec ++ ": "
      ++ source.message
  | .duplicatePathSpec index spec =>
    "mapping " ++ toString index ++ ": duplicate path spec " ++ spec.toString
  | .unknownEndpoint index endpoint =>
    "mapping " ++ toString index ++ ": unknown endpoint " ++ Text.Quoted.ofString endpoint
  | .zeroSize scope field => scope ++ ": " ++ field ++ " must be greater than zero"
  | .frameExceedsMessage scope frame message =>
    scope ++ ": max_frame_size (" ++ toString frame ++ ") exceeds max message size ("
      ++ toString message ++ ")"
  | .missingAdminKey => "admin: api_key must be set when the admin API is enabled"
  | .invalidAddress field value =>
    field ++ ": invalid socket address " ++ Text.Quoted.ofString value

end ValidationError

def knownEndpoints : List String := ["echo", "chat"]

def checkAddress (field value : String) : List ValidationError :=
  match Net.SocketAddress.parse value.toList with
  | some _ => []
  | none => [.invalidAddress field value]

def SessionConfig.sizes (c : SessionConfig) : List (String × Nat) := [
  ("input_buffer_size", c.inputBufferSize),
  ("output_buffer_size", c.outputBufferSize),
  ("max_text_message_size", c.maxTextMessageSize),
  ("max_binary_message_size", c.maxBinaryMessageSize),
  ("max_frame_size", c.maxFrameSize)]

/-- No size is zero, and no frame may be larger than every message. -/
def checkSizes (scope : String) (c : SessionConfig) : List ValidationError :=
  (c.sizes.filterMap fun (field, size) => if size = 0 then some (.zeroSize scope field) else none)
    ++ if c.maxMessageSize < c.maxFrameSize then
        [.frameExceedsMessage scope c.maxFrameSize c.maxMessageSize]
      else []

def isBlankText (s : String) : Bool := (Text.trim s.toList).isEmpty

def checkAdmin (c : AdminConfig) : List ValidationError :=
  if c.enabled then
    checkAddress "admin.bind_address" c.bindAddress
      ++ if isBlankText c.apiKey then [.missingAdminKey] else []
  else []

def checkMetrics (c : ObservabilityConfig) : List ValidationError :=
  if c.metricsEnabled then checkAddress "observability.metrics_address" c.metricsAddress else []

/-- The name under which a mapping's own policy is reported. -/
def mappingScope (index : Nat) : String := "mapping " ++ toString index

def checkEndpoint (index : Nat) (endpoint : String) : List ValidationError :=
  if endpoint ∈ knownEndpoints then [] else [.unknownEndpoint index endpoint]

/-- A mapping's own policy is checked when it differs from the common one. -/
def checkMerged (index : Nat) (common : SessionConfig) (o : Overrides) : List ValidationError :=
  if common.customized o = common then [] else checkSizes (mappingScope index) (common.customized o)

/-- Checks mappings from an index on. `seen` holds the specs of those before it. -/
def checkMappings (common : SessionConfig) (seen : List Path.Spec) (index : Nat) :
    List MappingConfig → List ValidationError
  | [] => []
  | m :: rest =>
    let rules := checkEndpoint index m.endpoint ++ checkMerged index common m.overrides
    match Path.Spec.parse m.pathSpec.toList with
    | .ok spec =>
      (if spec ∈ seen then [.duplicatePathSpec index spec] else [])
        ++ rules ++ checkMappings common (spec :: seen) (index + 1) rest
    | .error source =>
      .invalidPathSpec index m.pathSpec source :: rules
        ++ checkMappings common seen (index + 1) rest

def ServerConfig.errors (c : ServerConfig) : List ValidationError :=
  checkAddress "listener.bind_address" c.listener.bindAddress
    ++ checkAdmin c.admin
    ++ checkMetrics c.observability
    ++ checkSizes "websocket" c.websocket
    ++ checkMappings c.websocket [] 0 c.mappings

end Gateway.Config
