import Gateway.Text.Reader
import Gateway.Upgrade.Creator

/-!
Scripted parties: creators and endpoints that do what a script says, to play out scenarios.
-/
namespace Gateway.Scenario

/-! ### Endpoints -/

/-- A number of 64 bits. What is no such number counts as zero. -/
def numberOrZero (cs : List Char) : Nat :=
  ((Text.unsigned? cs).filter (· < Nat.pow 2 64)).getD 0

def commandActs (command : List Char) : List Session.Act :=
  let verb := String.ofList (command.takeWhile (· != ':'))
  let arg := (command.dropWhile (· != ':')).drop 1
  if verb = "send" then [.send (.text (String.ofList arg)) .journaled]
  else if verb = "bin" then
    [.send (.binary (List.replicate (numberOrZero arg) 0xAB)) .journaled]
  else if verb = "flood" then [.flood (numberOrZero arg)]
  else if verb = "panic" then [.panic (.text (String.ofList arg))]
  else if verb = "close" then [.requestClose]
  else []

/-- Records every callback, panics where it is told to, and does what texts command. -/
def scriptedEndpoint (panicOn : List Session.CallbackKind) : Session.Endpoint := ⟨fun _ callback =>
  let panic := if callback.kind ∈ panicOn then
    [Session.Act.panic (.text ("endpoint " ++ callback.kind.label ++ " panic"))] else []
  let commands := match callback with
    | .text s => (s.toList.splitOn ';').flatMap commandActs
    | _ => []
  .record :: (panic ++ commands)⟩

inductive EndpointChoice where
  | noop
  | echo
  | chat
  | scripted (panicOn : List Session.CallbackKind)
  deriving DecidableEq, Repr

def EndpointChoice.endpoint (registry : Nat) : EndpointChoice → Session.Endpoint
  | .noop => .noop
  | .echo => .echo
  | .chat => .chat registry
  | .scripted panicOn => scriptedEndpoint panicOn

/-! ### Creators -/

inductive ScriptAct where
  | subprotocol (p : String)
  | customize (o : Config.Overrides)
  | idle (secs : Nat)
  | sendError (status : Nat) (reason : String)
  | header (name : String) (value : List UInt8)
  | fire (o : Upgrade.Outcome) (lenient : Bool)
  | require (p : String)
  | note (param : String)
  | wait (forGood : Bool)

inductive ScriptResult where
  | accept
  | decline
  | error (message : String)
  | panic (payload : Session.PanicPayload)
  | panicEarly

structure CreatorScript where
  acts : List ScriptAct := []
  result : ScriptResult := .accept
  endpoint : EndpointChoice := .noop
  /-- Written as a plain function, which cannot wait. -/
  synchronous : Bool := false

def noteText (request : Upgrade.Request) (param : String) (response : Upgrade.Response) :
    String :=
  "creator " ++ (Document.table [
    ("config", response.config.toDocument),
    ("offered", .list (request.subprotocols.map Document.text)),
    ("param", .ofOption .text (request.param? param)),
    ("path", .text request.path),
    ("query", .ofOption .text request.query),
    ("spec", .ofOption (fun m => .text m.spec.toString) request.matched),
    ("x-test", .ofOption .text (request.headers.text? "x-test"))]).compact

/-- The plan of a script; what ends it early takes the place of the finish. -/
def plan (request : Upgrade.Request) (synchronous : Bool) (finish : Upgrade.Finish) :
    List ScriptAct → Upgrade.Plan
  | [] => { finish }
  | a :: rest =>
    let go (act : Upgrade.CreatorAct) : Upgrade.Plan :=
      let p := plan request synchronous finish rest
      { p with acts := act :: p.acts }
    match a with
    | .subprotocol p => go (.acceptSubprotocol p)
    | .customize o => go (.customize o)
    | .idle secs => go (.edit fun c => { c with idleTimeoutSecs := secs })
    | .sendError status reason => go (.sendError status reason)
    | .header name value =>
      match Http.fieldName? name, Http.fieldValue? value with
      | none, _ => { finish := .fail .badHeaderName }
      | _, none => { finish := .fail .badHeaderValue }
      | some name, some value => go (.appendHeader ⟨name, value⟩)
    | .fire o lenient => go (.fire o lenient)
    | .require p =>
      if request.offers p then plan request synchronous finish rest
      else { acts := [.sendError 400 (p ++ " required")], finish := .decline }
    | .note param => go (.note (noteText request param))
    | .wait forGood =>
      if synchronous then { finish := .fail (.because "script waits") }
      else go (if forGood then .stall else .pause)

namespace CreatorScript

def finish (s : CreatorScript) (registry : Nat) : Upgrade.Finish :=
  match s.result with
  | .accept => .accept (s.endpoint.endpoint registry)
  | .decline => .decline
  | .error message => .fail (.because message)
  | .panic payload => .panic payload
  | .panicEarly => .panic (.text "static early panic")

def creator (s : CreatorScript) (registry : Nat) : Upgrade.Creator := fun request =>
  match s.result with
  | .panicEarly => { finish := s.finish registry }
  | _ => plan request s.synchronous (s.finish registry) s.acts

end CreatorScript
end Gateway.Scenario
