import Gateway.Connection.Frame
import Gateway.Hub.Call
import Gateway.Hub.Callback
import Gateway.Text.Bytes

/-!
Pumps: the task that serves one connection. A pump hands what comes in to the session's endpoint,
writes what the session queues, and ends for one of many reasons. However it ends, it calls the
endpoint a last time, unless another pump has the queue, and unregisters the session.

A pump goes from stage to stage. Between stages it works off calls on the registry, step by step.
While it waits, whoever runs it chooses which of the things that are ready comes first.
-/
namespace Gateway.Connection

inductive Outgoing where
  | message (m : Session.Message)
  | pong (payload : List UInt8)
  | close (code : Nat) (reason : String)
  deriving DecidableEq, Repr

inductive Exit where
  | peer
  | close (code : Nat) (reason : String)
  deriving DecidableEq, Repr

namespace Exit

def endpointFailure : Exit := .close 1011 "endpoint failure"
def serverClosing : Exit := .close 1001 "server closing"
def idleTimeout : Exit := .close 1001 "idle timeout"
def messageTooLarge : Exit := .close 1009 "message too large"

def ofTextError : Session.Error → Exit
  | .messageTooLarge _ => .close 1009 "invalid text message"
  | .invalidText _ => .close 1007 "invalid text message"
  | _ => .close 1011 "invalid text message"

end Exit

namespace Pump

inductive Stage where
  | starting
  | checking
  | waiting
  | leaving (exit : Exit)
  /-- The endpoint has had its last callback. -/
  | unregistering
  | done
  deriving DecidableEq, Repr

inductive Choice where
  | inbound (i : Inbound)
  | outbound
  | closeSignal
  deriving DecidableEq, Repr

end Pump

structure Pump where
  key : SessionKey
  assembler : Session.Assembler
  stage : Pump.Stage := .starting
  /-- Calls on the registry to be worked off before the next stage. -/
  calls : List Call := []
  writable : Bool := true
  /-- A ping that is still to be answered. -/
  owed : Option (List UInt8) := none
  written : List Outgoing := []
  deadline : Option Nat := none
  deriving DecidableEq, Repr

namespace Pump

def new (key : SessionKey) (config : Config.SessionConfig) : Pump :=
  { key, assembler := .new config.maxTextMessageSize }

/-- Stands in the log for the transport's own words. -/
def transportWords : String := "<text>"

def write (p : Pump) (o : Outgoing) : Pump := { p with written := p.written ++ [o] }

/-- Calls the endpoint. A panic is logged and reported to the listeners; `false` says that there
was one. -/
def callEndpoint (h : Hub) (p : Pump) (c : Session.Callback) : Hub × Pump × Bool :=
  match h.callback p.key c with
  | (h, none) => (h, p, true)
  | (h, some payload) =>
    let e := Session.Error.endpointPanicked payload.message
    (h.log .error "Endpoint callback panicked"
        [("error", .text e.message), ("session_id", .session p.key)],
      { p with calls := p.calls ++ [.report p.key e] }, false)

def fail (h : Hub) (p : Pump) (e : Session.Error) (exit : Exit) : Hub × Pump :=
  let h := h.log .debug "Session error" [("error", .text e.message), ("session_id", .session p.key)]
  let (h, p, _) := p.callEndpoint h (.failed e)
  (h, { p with calls := p.calls ++ [.report p.key e], stage := .leaving exit })

def deliver (h : Hub) (p : Pump) (c : Session.Callback) : Hub × Pump :=
  match p.callEndpoint h c with
  | (h, p, true) => (h, { p with stage := .checking })
  | (h, p, false) => (h, { p with stage := .leaving .endpointFailure })

/-- Starts serving, unless another pump has taken the queue. -/
def start (h : Hub) (p : Pump) : Hub × Pump :=
  match h.session? p.key with
  | none => (h, { p with stage := .done })
  | some s =>
    if s.takeQueue.2 then
      let h := h.modify p.key fun s => s.takeQueue.1
      p.deliver (h.log .debug "WebSocket connection open"
        [("path", .text s.path), ("session_id", .session p.key)]) .opened
    else
      (h.log .warn "Session is already being served" [("session_id", .session p.key)],
        { p with calls := [.closeSession p.key], stage := .done })

def check (h : Hub) (p : Pump) : Hub × Pump :=
  match h.session? p.key with
  | none => (h, { p with stage := .leaving .peer })
  | some s =>
    if s.closeRequested || s.phase ≠ .opened then
      (h, { p with stage := .leaving .serverClosing })
    else
      let p := { p with
        stage := .waiting
        deadline := s.config.idleTimeout.map fun d : Config.Duration => h.clock + d.wholeSecs }
      match p.owed with
      | none => (h, p)
      | some payload =>
        if p.writable then (h, { p.write (.pong payload) with owed := none })
        else p.fail h (.transport none) .peer

def takeInbound (h : Hub) (p : Pump) (config : Config.SessionConfig) : Inbound → Hub × Pump
  | .text s =>
    match p.assembler.onFrame (Text.bytes s) true with
    | (assembler, .ok (some s)) => { p with assembler }.deliver h (.text s)
    | (assembler, .ok none) => (h, { p with assembler, stage := .checking })
    | (assembler, .error e) =>
      let h := match e with
        | .invalidText _ => { h with metrics := h.metrics.countUtf8Error }
        | _ => h
      { p with assembler }.fail h e (.ofTextError e)
  | .binary bytes =>
    if config.maxBinaryMessageSize < bytes.length then
      p.fail h (.messageTooLarge config.maxBinaryMessageSize) .messageTooLarge
    else p.deliver h (.binary bytes)
  | .ping payload => (h, { p with owed := some payload, stage := .checking })
  | .pong => (h, { p with stage := .checking })
  | .close said =>
    (h.log .debug "Peer closed connection"
        [("session_id", .session p.key), ("frame", .closing said)],
      { p with stage := .leaving .peer })
  | .failed => p.fail h (.transport none) .peer
  | .ended => (h, { p with stage := .leaving .peer })
  | .idle => p.fail h (.idleTimeout config.idleTimeoutSecs) .idleTimeout

def takeOutbound (h : Hub) (p : Pump) (s : Session) : Hub × Pump :=
  match s.receive with
  | (_, none) => (h, p)
  | (_, some m) =>
    let h := h.modify p.key fun s => s.receive.1
    if p.writable then (h, { p.write (.message m) with stage := .checking })
    else p.fail h (.transport none) .peer

/-- Takes up one of the things that are ready. One that is not ready changes nothing. -/
def choose (h : Hub) (p : Pump) (choice : Choice) : Hub × Pump :=
  match h.session? p.key with
  | none => (h, { p with stage := .leaving .peer })
  | some s =>
    match choice with
    | .inbound i => p.takeInbound h s.config i
    | .outbound => p.takeOutbound h s
    | .closeSignal => if s.closeRequested then (h, { p with stage := .checking }) else (h, p)

/-- Writes a close frame. An answer that is still owed to a ping goes out behind it. -/
def writeClose (p : Pump) (code : Nat) (reason : String) : Pump :=
  let p := p.write (.close code reason)
  match p.owed with
  | none => p
  | some payload => { p.write (.pong payload) with owed := none }

def leave (h : Hub) (p : Pump) (exit : Exit) : Hub × Pump :=
  let (h, p) := match exit with
    | .peer => (h, p)
    | .close code reason =>
      if p.writable then (h, p.writeClose code reason)
      else
        (h.log .debug "Failed to send close frame"
          [("error", .text transportWords), ("session_id", .session p.key)], p)
  let (h, p, _) := p.callEndpoint h .closed
  (h, { p with stage := .unregistering })

/-- The queue goes with the pump that has taken it, and the session is unregistered. -/
def unregister (h : Hub) (p : Pump) : Hub × Pump :=
  ((h.log .debug "WebSocket connection closed" [("session_id", .session p.key)]).modify p.key
      Session.dropQueue,
    { p with calls := [.closeSession p.key], stage := .done })

/-- One step. The choice matters to a waiting pump only. -/
def step (h : Hub) (p : Pump) (choice : Option Choice) : Hub × Pump :=
  match p.calls with
  | call :: calls =>
    let (h, more) := call.step h
    (h, { p with calls := more ++ calls })
  | [] =>
    match p.stage, choice with
    | .starting, _ => p.start h
    | .checking, _ => p.check h
    | .waiting, some choice => p.choose h choice
    | .waiting, none => (h, p)
    | .leaving exit, _ => p.leave h exit
    | .unregistering, _ => p.unregister h
    | .done, _ => (h, p)

def hasEnded (p : Pump) : Bool := p.stage = .done ∧ p.calls = []

end Pump
end Gateway.Connection
