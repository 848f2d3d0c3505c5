import Gateway.Http.Message
import Gateway.Upgrade.Run

/-!
Upgrade requests over HTTP: a request is checked for being a WebSocket upgrade, goes through the
container, and is answered by what came of it. Only an established session switches protocols.
-/
namespace Gateway.Http

inductive NotUpgrade where
  | method
  | connection
  | upgrade
  | version
  | key
  | protocolTooOld
  deriving DecidableEq, Repr

namespace NotUpgrade

def status : NotUpgrade → Nat
  | .method => 405
  | .protocolTooOld => 426
  | .connection | .upgrade | .version | .key => 400

def message : NotUpgrade → String
  | .method => "Request method must be \x60GET\x60"
  | .connection => "Connection header did not include 'upgrade'"
  | .upgrade => "\x60Upgrade\x60 header did not include 'websocket'"
  | .version => "\x60Sec-WebSocket-Version\x60 header did not include '13'"
  | .key => "\x60Sec-WebSocket-Key\x60 header missing"
  | .protocolTooOld => "WebSocket request couldn't be upgraded since no upgrade state was present"

def response (r : NotUpgrade) : Response := .plain r.status r.message

end NotUpgrade

def lowerByte (b : UInt8) : UInt8 := if 0x41 ≤ b && b ≤ 0x5A then b + 0x20 else b

def isInfix (part : List UInt8) : List UInt8 → Bool
  | [] => part.isEmpty
  | b :: rest => part.isPrefixOf (b :: rest) || isInfix part rest

namespace Request

/-- The first value of a name is this text, letters in either case. -/
def fieldIs (r : Request) (name value : String) : Bool :=
  (r.headers.first? name).any fun v => v.map lowerByte == (Text.bytes value).map lowerByte

def fieldHolds (r : Request) (name value : String) : Bool :=
  (r.headers.first? name).any fun v =>
    (Text.ofBytes? v).isSome && isInfix (Text.bytes value) (v.map lowerByte)

/-- Why a request is no WebSocket upgrade, if it is none. The first reason counts. -/
def notUpgrade? (r : Request) : Option NotUpgrade :=
  if r.method ≠ "GET" then some .method
  else if !r.fieldHolds "connection" "upgrade" then some .connection
  else if !r.fieldIs "upgrade" "websocket" then some .upgrade
  else if !r.fieldIs "sec-websocket-version" "13" then some .version
  else if !r.headers.contains "sec-websocket-key" then some .key
  else if r.version ≠ .v11 then some .protocolTooOld
  else none

/-- What stands between the commas of all offers of subprotocols. -/
def offeredTokens (r : Request) : List (List UInt8) :=
  (r.headers.valuesOf Upgrade.Request.offerHeader).flatMap fun value =>
    (value.splitOn 0x2C).map trimValue

def path (r : Request) : String := String.ofList r.target.path

end Request

/-- The sizes that a connection is set to before it switches protocols, in bytes. -/
structure Settings where
  readBuffer : Nat
  writeBuffer : Nat
  maxMessage : Nat
  maxFrame : Nat
  deriving DecidableEq, Repr

def Settings.ofConfig (c : Config.SessionConfig) : Settings where
  readBuffer := c.inputBufferSize
  writeBuffer := c.outputBufferSize
  maxMessage := c.maxMessageSize
  maxFrame := c.maxFrameSize

inductive Answer where
  | respond (r : Response)
  /-- The connection now belongs to a session. -/
  | switch (r : Response) (key : SessionKey) (settings : Settings)

inductive Handling where
  | answered (a : Answer)
  | stalled (x : Upgrade.Exchange)

/-- The response that switches protocols. An accepted subprotocol is named if it was offered. -/
def switching (request : Request) (subprotocol : Option String) (extra : Headers) : Response :=
  let named := match subprotocol with
    | none => []
    | some p =>
      if request.offeredTokens.contains (Text.bytes p) ∧ (fieldValue? (Text.bytes p)).isSome then
        [Response.field "sec-websocket-protocol" p]
      else []
  { status := 101
    headers := Headers.extend ⟨[Response.field "connection" "upgrade",
      Response.field "upgrade" "websocket"] ++ named⟩ extra }

def notFound (h : Hub) (id path : String) : Hub × Answer :=
  (h.log .debug "No WebSocket mapping matched" [("path", .text path), ("request_id", .text id)],
    .respond (.plain 404 "No WebSocket mapping for path"))

def negotiationFailed (h : Hub) (id : String) (e : Upgrade.NegotiationError) : Hub × Answer :=
  (h.log .warn "WebSocket negotiation failed"
      [("error", .text e.message), ("request_id", .text id)],
    .respond (.plain 500 "WebSocket negotiation failed"))

/-- The answer to an exchange without a session: what the creator wants to say, or that nothing is
to be had. -/
def declined (h : Hub) (id : String) (response : Upgrade.Response) : Hub × Answer :=
  let (status, reason) := match response.rejection with
    | some r => (statusOr503 r.status, r.reason)
    | none => (503, "WebSocket upgrade declined")
  let plain := Response.plain status reason
  (h.log .debug "Upgrade declined"
      [("request_id", .text id), ("status", .text (statusLine status))],
    .respond { plain with headers := plain.headers.extend response.headers })

def answerPlain (c : Upgrade.Container) (h : Hub) (id : String) (request : Request)
    (why : NotUpgrade) : Hub × Answer :=
  match c.resolve request.path with
  | none => notFound h id request.path
  | some _ =>
    (h.log .debug "Not a WebSocket upgrade request"
        [("path", .text request.path), ("request_id", .text id)],
      .respond why.response)

/-- The answer to an exchange that has ended. A completion that nobody fired is dropped here. -/
def answerExchange (h : Hub) (id : String) (request : Request) (x : Upgrade.Exchange) :
    Hub × Answer :=
  if !x.handled then
    let (h, answer) := notFound h id request.path
    (if x.completion.cancelsOnDrop then h.note (.line Upgrade.Completion.abandonment) else h,
      answer)
  else
    match x.completion.drop.calls.head?, x.response.session with
    | some (.failed e), _ => negotiationFailed h id e
    | none, _ => negotiationFailed h id .cancelled
    | some .succeeded, none => declined h id x.response
    | some .succeeded, some key =>
      let session := h.session? key
      (h, .switch (switching request (session.bind Session.subprotocol) x.response.headers) key
        (.ofConfig ((session.map Session.config).getD {})))

/-- Takes an upgrade request through a container, as far as it goes. A creator that stalls leaves
the exchange where it is, without an answer. -/
def answerUpgrade (c : Upgrade.Container) (h : Hub) (id : String) (request : Request) :
    Hub × Handling :=
  let (h, x) := Upgrade.Exchange.run c h { request := .ofParts request.target request.headers }
  if x.hasEnded then
    let (h, answer) := answerExchange h id request x
    (h, .answered answer)
  else (h, .stalled x)

def answer (c : Upgrade.Container) (h : Hub) (id : String) (request : Request) : Hub × Handling :=
  match request.notUpgrade? with
  | some why =>
    let (h, answer) := answerPlain c h id request why
    (h, .answered answer)
  | none => answerUpgrade c h id request

end Gateway.Http
