import Gateway.Log.Print
import Gateway.Program.Client
import Gateway.Program.Server

/-!
The two programs. Which one is run is told by the name it is started under. Networks are outside:
the server listens to nobody and is stopped by the end of its input, as by an interrupt, and the
client prints the request that it would send.
-/
namespace Gateway.Program

def environment (names : List String) : IO CommandLine.Values :=
  names.filterMapM fun name => do return (← IO.getEnv name).map fun value => (name, value)

def endWith (g : CommandLine.Grammar) (env : CommandLine.Values) (s : CommandLine.Stop) :
    IO UInt32 := do
  for line in g.lines env s do IO.println line
  return s.status.toUInt32

def fail (message : String) : IO UInt32 := do
  IO.eprintln ("Error: " ++ message)
  return 1

def printLog (c : Config.ServerConfig) (f : Log.Filter) (lines : List (Part × Log.Line)) :
    IO Unit := do
  for (part, line) in Server.visible f lines do
    IO.println (if c.observability.jsonLogs then (line.toDocument {} part.target).compact
      else line.toText {} part.target)

def serve (env : CommandLine.Values) (c : Config.ServerConfig) : IO UInt32 := do
  let f := Server.filter env c.observability
  let (before, refusal) := Server.startup c
  printLog c f before
  match refusal with
  | some e => fail e.message
  | none =>
    let _ ← (← IO.getStdin).getLine
    printLog c f (Server.closingLines .interrupt)
    return 0

def runServer (arguments : List String) : IO UInt32 := do
  let env ← environment ["RUST_LOG", "WSGATE_CONFIG"]
  let file ← match Server.configFile? env arguments with
    | none => pure none
    | some path => try (some ∘ ByteArray.toList) <$> IO.FS.readBinFile path catch _ => pure none
  match Server.plan (fun _ => file) env arguments with
  | .stop s => endWith Server.grammar env s
  | .fail e => fail e.message
  | .serve c => serve env c

def runClient (arguments : List String) : IO UInt32 := do
  let env ← environment ["WSGATE_ADMIN_URL", "WSGATE_ADMIN_KEY"]
  match Client.plan env arguments with
  | .stop s => endWith Client.grammar env s
  | .badKey => fail "failed to parse header value"
  | .send r =>
    IO.println (r.method ++ " " ++ r.url)
    return 0

end Gateway.Program

def main (arguments : List String) : IO UInt32 := do
  if (← IO.appPath).fileName == some Gateway.Program.Client.grammar.name then
    Gateway.Program.runClient arguments
  else Gateway.Program.runServer arguments
