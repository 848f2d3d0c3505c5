import Gateway.CommandLine.Help
import Gateway.CommandLine.Parse
import Gateway.Http.Header

/-!
The program that asks a server's admin API. Its command line says which server, with which key and
what to ask. A key that cannot stand in a header is refused before anything is sent.
-/
namespace Gateway.Program.Client

open CommandLine

def grammar : Grammar where
  name := "wsgate-cli"
  about := "Management CLI for the wsgate WebSocket server"
  parameters := [
    { short := 'u', long := "url", envName := "WSGATE_ADMIN_URL"
      fallback := some "http://localhost:8081" },
    { short := 'k', long := "key", envName := "WSGATE_ADMIN_KEY", required := true }]
  verbs := [
    { name := "status", about := "Check server status" },
    { name := "sessions", about := "List open sessions" },
    { name := "mappings", about := "List path spec mappings and their configuration" },
    { name := "close", about := "Close one session by id", operands := ["ID"] }]

structure Request where
  method : String
  url : String
  authorization : Http.Field

def target : String → List String → String × String
  | "close", [id] => ("POST", "/admin/sessions/" ++ id ++ "/close")
  | verb, _ => ("GET", "/admin/" ++ verb)

def base (url : String) : String :=
  String.ofList (url.toList.reverse.dropWhile (· == '/')).reverse

inductive Plan where
  | stop (s : Stop)
  | badKey
  | send (r : Request)

def plan (environment : Values) (arguments : List String) : Plan :=
  match grammar.parse environment arguments with
  | .error s => .stop s
  | .ok order =>
    let key := (order.value? "key").getD ""
    match Http.fieldValue? (Text.bytes ("Bearer " ++ key)), order.verb with
    | none, _ => .badKey
    | some _, none => .stop .misuse
    | some value, some (verb, operands) =>
      let (method, path) := target verb.name operands
      .send {
        method
        url := base ((order.value? "url").getD "") ++ path
        authorization := ⟨"authorization", value⟩ }

end Gateway.Program.Client
