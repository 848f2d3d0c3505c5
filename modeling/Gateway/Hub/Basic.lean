import Gateway.Metrics
import Gateway.Session.Basic

/-!
The state that all tasks of a server share: every session ever made, the registry with the live
ones and the listeners, the metrics, and the journal of what happened. A session is named by its
key, its place among all sessions; keys are never reused.
-/
namespace Gateway

/-- A listener was told of an event, of a session in some phase. -/
structure Hearing where
  listener : Session.Listener
  event : Session.Event
  key : SessionKey
  phase : Session.Phase
  deriving DecidableEq, Repr

/-- One thing that happened, as somebody watching the server can see it. -/
inductive Entry where
  | line (l : Log.Line)
  | heard (x : Hearing)
  | called (callback : Session.Callback) (key : SessionKey) (phase : Session.Phase)
  | sendFailed (key : SessionKey) (e : Session.Error)
  | noted (text : String)
  deriving DecidableEq, Repr

structure Registry where
  /-- Which of the registries of a process this is. -/
  serial : Nat := 0
  live : List SessionKey := []
  /-- The listeners in order of registration. One listener may be registered more than once. -/
  listeners : List Session.Listener := []
  faults : Nat := 0
  deriving DecidableEq, Repr, Inhabited

structure Hub where
  sessions : List Session := []
  registry : Registry := {}
  /-- Every listener that can be named, registered or not. -/
  cast : List Session.Listener := []
  metrics : Metrics := {}
  journal : List Entry := []
  lastFaults : List Session.Fault := []
  waverings : Nat := 0
  clock : Nat := 0

namespace Registry

/-- Registers a listener once more. -/
def enlist (r : Registry) (l : Session.Listener) : Registry :=
  { r with listeners := r.listeners ++ [l] }

/-- Takes out every registration of a name, and says whether there was one. -/
def dismiss (r : Registry) (name : String) : Registry × Bool :=
  ({ r with listeners := r.listeners.filter (·.name != name) },
    r.listeners.any (·.name == name))

def summary (r : Registry) : String :=
  "SessionRegistry \x7b open_sessions: " ++ toString r.live.length ++ ", listeners: "
    ++ toString r.listeners.length ++ ", faults: " ++ toString r.faults ++ " \x7d"

end Registry

namespace Hub

def note (h : Hub) (e : Entry) : Hub := { h with journal := h.journal ++ [e] }

def log (h : Hub) (level : Log.Level) (message : String) (fields : List (String × Log.Value)) :
    Hub :=
  h.note (.line ⟨level, message, fields⟩)

def session? (h : Hub) (key : SessionKey) : Option Session := h.sessions[key]?

def phase (h : Hub) (key : SessionKey) : Session.Phase :=
  ((h.session? key).map Session.phase).getD .closed

def modify (h : Hub) (key : SessionKey) (f : Session → Session) : Hub :=
  { h with sessions := h.sessions.modify key f }

def nextKey (h : Hub) : SessionKey := h.sessions.length

/-- Makes a session. It is not live until it is opened. -/
def create (h : Hub) (matched : Path.Match) (config : Config.SessionConfig)
    (subprotocol : Option String) (endpoint : Session.Endpoint) : Hub × SessionKey :=
  ({ h with sessions := h.sessions
      ++ [{ id := .made h.nextKey, matched, config, subprotocol, endpoint }] },
    h.nextKey)

def send (h : Hub) (key : SessionKey) (m : Session.Message) : Hub × Except Session.Error Unit :=
  match h.session? key with
  | none => (h, .error .closed)
  | some s =>
    match s.sendError? m with
    | some (.queueFull capacity) =>
      (h.log .warn "Outbound queue full, dropping message" [("session_id", .session key)],
        .error (.queueFull capacity))
    | some e => (h, .error e)
    | none => (h.modify key fun s => (s.send m).1, .ok ())

def listener? (h : Hub) (name : String) : Option Session.Listener :=
  h.cast.find? (·.name == name)

def find? (h : Hub) (id : Session.Id) : Option SessionKey :=
  h.registry.live.find? fun key => (h.session? key).any (·.id == id)

def pathOf (h : Hub) (key : SessionKey) : String := ((h.session? key).map Session.path).getD ""

/-- The live sessions that share a session's room, in one registry. The session itself is one of
them while it is live. -/
def roomMates (h : Hub) (registry : Nat) (key : SessionKey) : List SessionKey :=
  if h.registry.serial = registry then
    match h.session? key with
    | none => []
    | some s => h.registry.live.filter fun k => (h.session? k).any s.sharesRoom
  else []

def renewRegistry (h : Hub) : Hub :=
  { h with registry := { serial := h.registry.serial + 1 } }

end Hub
end Gateway
