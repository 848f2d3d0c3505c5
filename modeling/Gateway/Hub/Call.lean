import Gateway.Hub.Basic

/-!
Calls on the registry, as the steps that other tasks can come between. Opening a session is three
steps: its phase changes, it becomes live, its opening is announced. Closing is three as well: it
stops being live, its phase changes, and if both were news its closing is announced. An
announcement reads the list of listeners once and then tells them one by one, in order; whatever a
listener calls from inside, for whatever session, is done before the next one is told.

A task is a stack of calls. `step` does one step of one task. `run` does a whole task with no
other in between; it ends because a session is opened at most once and closed at most once.
-/
namespace Gateway

inductive Call where
  | openSession (key : SessionKey)
  | goLive (key : SessionKey)
  | closeSession (key : SessionKey)
  /-- The second step of closing; `removed` says whether the session was live. -/
  | finishClose (key : SessionKey) (removed : Bool)
  | announce (key : SessionKey) (event : Session.Event)
  | report (key : SessionKey) (e : Session.Error)
  | notify (key : SessionKey) (event : Session.Event)
  /-- A notification on its way: the listeners still to be told, and the faults so far. -/
  | deliver (key : SessionKey) (event : Session.Event) (index : Nat)
      (rest : List Session.Listener) (faults : List Session.Fault)
  /-- Closes all sessions, of those that are named the first one first. -/
  | closeAll (first : List SessionKey)
  | closeEach (count : Nat) (keys : List SessionKey)
  deriving DecidableEq, Repr

/-- The calls that tasks begin with. -/
def Call.isEntry : Call → Bool
  | .openSession _ | .closeSession _ | .report _ _ | .closeAll _ => true
  | _ => false

/-- The live sessions in some order: those that are named come first, as they are named. With all of
them named, this can be any order. -/
def visit : List SessionKey → List SessionKey → List SessionKey
  | [], live => live
  | key :: first, live =>
    if live.contains key then key :: visit first (live.erase key) else visit first live

def Session.Reaction.calls (key : SessionKey) : Session.Reaction → List Call
  | .closeSession other => [.closeSession (other.getD key)]
  | .openSession other => [.openSession (other.getD key)]
  | .closeAll first => [.closeAll first]
  | _ => []

namespace Hub

def announcement : Session.Event → String
  | .opened => "Session opened"
  | .closed => "Session closed"
  | .failed _ => "Session error"

def logEvent (h : Hub) (key : SessionKey) (event : Session.Event) : Hub :=
  match h.session? key with
  | none => h
  | some s =>
    match event with
    | .opened =>
      h.log .info (announcement event) [("path", .text s.path), ("path_spec", .text s.pathSpec),
        ("session_id", .session key), ("subprotocol", .text (s.subprotocol.getD "-"))]
    | .closed =>
      h.log .info (announcement event) [("path", .text s.path), ("session_id", .session key)]
    | .failed e =>
      h.log .warn (announcement event)
        [("error", .text e.message), ("session_id", .session key)]

/-- A listener hears of an event, before it reacts. -/
def hear (h : Hub) (l : Session.Listener) (key : SessionKey) (event : Session.Event) : Hub :=
  let h := h.note (.heard ⟨l, event, key, h.phase key⟩)
  if l.logs then h.logEvent key event else h

/-- A listener reacts, and fails or does not. What it calls on the registry comes after. -/
def react (h : Hub) (key : SessionKey) : Session.Reaction → Hub × Option Session.FaultCause
  | .fail message => (h, some (.failed message))
  | .panic payload => (h, some (.panicked payload.message))
  | .waver outcomes => ({ h with waverings := h.waverings + 1 }, outcomes[h.waverings]?.join)
  | .takeQueue other =>
    (h.modify (other.getD key) fun s => if s.takeQueue.2 then s.dropQueue else s, none)
  | .requestClose other => (h.modify (other.getD key) Session.requestClose, none)
  | .send other s =>
    match h.send (other.getD key) (.text s) with
    | (h, .ok ()) => (h, none)
    | (h, .error e) => (h, some (.failed e.message))
  | .enlist name =>
    match h.listener? name with
    | some l => ({ h with registry := h.registry.enlist l }, none)
    | none => (h, none)
  | .dismiss name => ({ h with registry := (h.registry.dismiss name).1 }, none)
  | .succeed | .closeSession _ | .openSession _ | .closeAll _ => (h, none)

def recordFault (h : Hub) (key : SessionKey) (f : Session.Fault) : Hub :=
  let h := { h with
    registry := { h.registry with faults := h.registry.faults + 1 }
    metrics := h.metrics.countFault f.event }
  h.log .warn "Failure while invoking session listener"
    [("error", .text f.message), ("session_id", .session key)]

def tell (h : Hub) (l : Session.Listener) (key : SessionKey) (event : Session.Event)
    (index : Nat) : Hub × Option Session.Fault :=
  match (h.hear l key event).react key (l.reaction event.kind) with
  | (h, none) => (h, none)
  | (h, some cause) =>
    let f := ⟨index, event.kind, cause⟩
    (h.recordFault key f, some f)

end Hub

namespace Call

def step (h : Hub) : Call → Hub × List Call
  | .openSession key =>
    match h.phase key with
    | .created => (h.modify key fun s => s.markOpen.1, [.goLive key])
    | phase =>
      (h.log .warn "Ignoring open of a session that is not new"
        [("session_id", .session key), ("state", .text phase.title)], [])
  | .goLive key =>
    ({ h with registry := { h.registry with live := h.registry.live ++ [key] } },
      [.announce key .opened])
  | .closeSession key =>
    ({ h with registry := { h.registry with live := h.registry.live.filter (· != key) } },
      [.finishClose key (h.registry.live.contains key)])
  | .finishClose key removed =>
    (h.modify key fun s => s.markClosed.1,
      if removed && h.phase key != .closed then [.announce key .closed] else [])
  | .announce key event =>
    let h := { h with metrics := h.metrics.setOpenSessions h.registry.live.length }
    (h.log .debug (Hub.announcement event)
      [("path", .text (h.pathOf key)), ("session_id", .session key)], [.notify key event])
  | .report key e =>
    (h.log .debug (Hub.announcement (.failed e))
      [("error", .text e.message), ("session_id", .session key)], [.notify key (.failed e)])
  | .notify key event => (h, [.deliver key event 0 h.registry.listeners []])
  | .deliver _ _ _ [] faults => ({ h with lastFaults := faults }, [])
  | .deliver key event index (l :: rest) faults =>
    let (h, fault) := h.tell l key event index
    (h, (l.reaction event.kind).calls key
      ++ [.deliver key event (index + 1) rest (faults ++ fault.toList)])
  | .closeAll first => (h, [.closeEach h.registry.live.length (visit first h.registry.live)])
  | .closeEach count [] =>
    (if count = 0 then h else h.log .info "Closed all open sessions" [("count", .number count)],
      [])
  | .closeEach count (key :: keys) =>
    (h.modify key Session.requestClose, [.closeSession key, .closeEach count keys])

end Call
end Gateway
