import Gateway.CommandLine.Help
import Gateway.CommandLine.Parse
import Gateway.Config.Loader
import Gateway.Log.Filter
import Gateway.Server
import Gateway.Startup

/-!
The server as a program. Its command line names a configuration file; without one all defaults
hold. Log lines are let through by a filter from the environment or, where that is missing or
cannot be read, by the configured level.
-/
namespace Gateway.Program

def name : String := "wsgate"

def version : String := "0.1.0"

/-- The part of the program that a log line is from. Filters choose by its target. -/
inductive Part where
  | main
  | metrics
  | container
  | startup
  | server
  | signals
  deriving DecidableEq, Repr

def Part.target : Part → String
  | .main => name
  | .metrics => name ++ "::observability::metrics"
  | .container => name ++ "::upgrade::container"
  | .startup => name ++ "::lifecycle::startup"
  | .server => name ++ "::http::server"
  | .signals => name ++ "::lifecycle::signals"

namespace Server

def grammar : CommandLine.Grammar where
  name := name
  about := "WebSocket server"
  version := some version
  parameters := [{
    short := 'c'
    long := "config"
    envName := "WSGATE_CONFIG"
    about := "Path to the TOML configuration file. Defaults are used when omitted"
    isPath := true }]

inductive Plan where
  | stop (s : CommandLine.Stop)
  | fail (e : Config.LoadError)
  | serve (config : Config.ServerConfig)

def configFile? (environment : CommandLine.Values) (arguments : List String) : Option String :=
  ((grammar.parse environment arguments).toOption).bind fun order => order.value? "config"

/-- Reads the command line and then the configuration file, by its path. -/
def plan (read : String → Option (List UInt8)) (environment : CommandLine.Values)
    (arguments : List String) : Plan :=
  match grammar.parse environment arguments with
  | .error s => .stop s
  | .ok order =>
    match order.value? "config" with
    | none => .serve {}
    | some path =>
      match Config.load (read path) with
      | .ok config => .serve config
      | .error e => .fail e

/-! ### The log -/

/-- The filter of a level that is configured. A level that cannot be read counts as `info`. -/
def levelFilter (level : String) : Log.Filter :=
  let level := Text.trimString level
  let ofLevel (level : String) : Option Log.Filter :=
    Log.Filter.parse? (name ++ "=" ++ level ++ ",tower_http=" ++ level)
  (ofLevel level <|> ofLevel "info").getD (.ofDirectives [])

def filter (environment : CommandLine.Values) (config : Config.ObservabilityConfig) : Log.Filter :=
  ((environment.lookup "RUST_LOG").bind Log.Filter.parse?).getD (levelFilter config.logLevel)

def loaded (c : Config.ServerConfig) : Log.Line :=
  ⟨.info, "Configuration loaded", [("bind_address", .text c.listener.bindAddress),
    ("idle_timeout_secs", .number c.websocket.idleTimeoutSecs),
    ("mappings", .number c.mappings.length)]⟩

def withoutMappings : Log.Line :=
  ⟨.warn, "No mappings configured, every request will be answered with 404", []⟩

def metricsListening : Log.Line :=
  ⟨.info, "Prometheus metrics endpoint listening", [("address", .address)]⟩

def openingLines (c : Config.ServerConfig) : List (Part × Log.Line) :=
  [(.main, ⟨.info, name ++ " v" ++ version ++ " starting", []⟩), (.main, loaded c)]
    ++ (if c.mappings.isEmpty then [(.main, withoutMappings)] else [])
    ++ if c.observability.metricsEnabled then [(.metrics, metricsListening)] else []

def setupLines (c : Config.ServerConfig) :
    List (Part × Log.Line) × Except StartupError Upgrade.Container :=
  let (added, result) := Startup.container 1 c
  let lines := added.flatMap fun (spec, m) =>
    [(.container, Upgrade.Container.registration spec), (.startup, Startup.mapped m)]
  match result with
  | .ok container => (lines ++ [(.container, container.readiness)], .ok container)
  | .error e => (lines, .error e)

def listeningLines (c : Config.ServerConfig) : List (Part × Log.Line) :=
  (.main, ⟨.info, "Listening for connections", [("address", .address)]⟩)
    :: (Server.startLines c.admin.enabled).map fun line => (.server, line)

def closingLines (s : Signal) : List (Part × Log.Line) :=
  [(.signals, Server.received s), (.server, Server.stopping), (.server, Server.stopped),
    (.main, ⟨.info, "Shutdown complete", []⟩)]

/-- The lines of a start, up to where the program waits, and why the server cannot be started. -/
def startup (c : Config.ServerConfig) : List (Part × Log.Line) × Option StartupError :=
  match setupLines c with
  | (lines, .error e) => (openingLines c ++ lines, some e)
  | (lines, .ok _) => (openingLines c ++ lines ++ listeningLines c, none)

/-- The lines of a run that no client comes to and a signal stops. How many tasks the signal
reached is left out, since the program may end before that is logged. -/
def run (c : Config.ServerConfig) (s : Signal) : List (Part × Log.Line) × Option StartupError :=
  match startup c with
  | (lines, some e) => (lines, some e)
  | (lines, none) => (lines ++ closingLines s, none)

def visible (f : Log.Filter) (lines : List (Part × Log.Line)) : List (Part × Log.Line) :=
  lines.filter fun (part, line) => f.passes part.target line

end Server
end Gateway.Program
