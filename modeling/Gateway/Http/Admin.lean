import Gateway.Http.Message
import Gateway.Hub.Run
import Gateway.Session.Uuid
import Gateway.Text.Bytes
import Gateway.Upgrade.Container

/-!
The admin API: a look at the server and the means to close a session. Every request must bring
the key, whatever it asks for; without it the answer does not depend on the server's state. Times
are left to whoever serves the documents.
-/
namespace Gateway.Http.Admin

/-- What the API offers. A session is named by text that is still percent-encoded. -/
inductive Route where
  | status
  | sessions
  | mappings
  | close (id : List Char)
  deriving DecidableEq, Repr

namespace Route

def ofPath? (path : List Char) : Option Route :=
  match path.splitOn '/' with
  | [[], a, b] =>
    if a ≠ "admin".toList then none
    else if b = "status".toList then some .status
    else if b = "sessions".toList then some .sessions
    else if b = "mappings".toList then some .mappings
    else none
  | [[], a, b, id, d] =>
    if a = "admin".toList ∧ b = "sessions".toList ∧ d = "close".toList then some (.close id)
    else none
  | _ => none

def allowed : Route → String
  | .close _ => "POST"
  | .status | .sessions | .mappings => "GET,HEAD"

def allows (r : Route) (method : String) : Bool :=
  (r.allowed.toList.splitOn ',').contains method.toList

end Route

/-- Bytes behind percent signs. A percent sign without two digits stands for itself. -/
def percentDecode : List UInt8 → List UInt8
  | 0x25 :: a :: b :: rest =>
    match Text.Hex.value? (Char.ofUInt8 a), Text.Hex.value? (Char.ofUInt8 b) with
    | some high, some low => UInt8.ofNat (16 * high + low) :: percentDecode rest
    | _, _ => 0x25 :: percentDecode (a :: b :: rest)
  | byte :: rest => byte :: percentDecode rest
  | [] => []

def bearer (key : String) : String := "Bearer " ++ key

/-- The request brings the key. An empty key lets nobody in. -/
def isAuthorized (key : String) (headers : Headers) : Bool :=
  match headers.text? "authorization" with
  | none => false
  | some value => key ≠ "" && value == bearer key

def sessionDocument (s : Session) : Document := .table [
  ("config", s.config.toDocument),
  ("id", .text (String.ofList (Session.Id.Format.uuid.write s.id))),
  ("path", .text s.path),
  ("path_spec", .text s.pathSpec),
  ("state", .text s.phase.label),
  ("subprotocol", .ofOption .text s.subprotocol)]

def groupTitle : Path.Group → String
  | .exact => "Exact"
  | .uriTemplate => "UriTemplate"
  | .prefixGlob => "PrefixGlob"
  | .suffixGlob => "SuffixGlob"
  | .default => "Default"

def mappingDocument (n : Upgrade.Negotiator) : Document := .table [
  ("config", n.config.toDocument),
  ("group", .text (groupTitle n.spec.group)),
  ("path_spec", .text n.spec.toString)]

def version : String := "0.1.0"

def statusDocument (c : Upgrade.Container) (h : Hub) : Document := .table [
  ("listener_faults", .ofNat h.registry.faults),
  ("listeners", .ofNat h.registry.listeners.length),
  ("mappings", .ofNat c.negotiators.size),
  ("open_sessions", .ofNat h.registry.live.length),
  ("status", .text "operational"),
  ("version", .text version)]

def askToClose (h : Hub) (key : SessionKey) : Hub :=
  (h.log .info "Closing session on admin request" [("session_id", .session key)]).modify key
    Session.requestClose

def closeSession (h : Hub) (key : SessionKey) : Hub := (askToClose h key).closeSession key

def close (h : Hub) (id : List Char) : Hub × Response :=
  match Text.ofBytes? (percentDecode (Text.encode id)) with
  | none => (h, .plain 400 "Invalid URL: Invalid UTF-8 in \x60id\x60")
  | some text =>
    match Session.Id.Format.uuid.parse? text.toList with
    | none => (h, { status := 400 })
    | some id =>
      match h.find? id with
      | none => (h, { status := 404 })
      | some key => (closeSession h key, { status := 204 })

def serve (c : Upgrade.Container) (h : Hub) : Route → Hub × Response
  | .status => (h, .ofDocument (statusDocument c h))
  | .sessions =>
    (h, .ofDocument (.list ((h.registry.live.filterMap h.session?).map sessionDocument)))
  | .mappings =>
    (h, .ofDocument (.list (c.negotiators.entries.map fun (_, n) => mappingDocument n)))
  | .close id => close h id

def unauthorized (h : Hub) (request : Request) : Hub × Response :=
  (h.log .debug "Rejected admin request" [("path", .text (String.ofList request.target.path))],
    { status := 401 })

/-- Answers a request. A method that a route does not have is told which ones it has. -/
def answer (c : Upgrade.Container) (h : Hub) (key : String) (request : Request) :
    Hub × Response :=
  let authorized := isAuthorized key request.headers
  match Route.ofPath? request.target.path with
  | none => if authorized then (h, { status := 404 }) else unauthorized h request
  | some route =>
    if route.allows request.method then
      if authorized then serve c h route else unauthorized h request
    else
      let allow := Response.field "allow" route.allowed
      let (h, r) := if authorized then (h, { status := 405 }) else unauthorized h request
      (h, r.replaceField allow)

end Gateway.Http.Admin
