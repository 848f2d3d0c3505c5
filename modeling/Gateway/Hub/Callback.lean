import Gateway.Hub.Basic

/-!
Calling an endpoint. A callback is atomic: its acts are carried out in order, with no other task
in between, until they are done or one of them panics.
-/
namespace Gateway.Hub

def complain (h : Hub) (key : SessionKey) (e : Session.Error) : Session.Complaint → Hub
  | .logged =>
    h.log .debug "Echo failed" [("error", .text e.message), ("session_id", .session key)]
  | .journaled => h.note (.sendFailed key e)

def flood (h : Hub) (key : SessionKey) (next : Nat) : Nat → Hub
  | 0 => h
  | count + 1 =>
    match h.send key (.text (toString next)) with
    | (h, .ok ()) => h.flood key (next + 1) count
    | (h, .error e) => h.complain key e .journaled

def sendEach (h : Hub) (s : String) : List SessionKey → Hub × Nat
  | [] => (h, 0)
  | key :: rest =>
    match h.send key (.text s) with
    | (h, .ok ()) =>
      let (h, delivered) := h.sendEach s rest
      (h, delivered + 1)
    | (h, .error e) =>
      (h.log .debug "Chat delivery failed"
        [("error", .text e.message), ("session_id", .session key)]).sendEach s rest

def act (h : Hub) (key : SessionKey) (callback : Session.Callback) :
    Session.Act → Hub × Option Session.PanicPayload
  | .record => (h.note (.called callback key (h.phase key)), none)
  | .send m complaint =>
    match h.send key m with
    | (h, .ok ()) => (h, none)
    | (h, .error e) => (h.complain key e complaint, none)
  | .flood count => (h.flood key 0 count, none)
  | .countRoom registry =>
    (h.log .debug "Joined chat room" [("members", .number (h.roomMates registry key).length),
      ("room", .text (h.pathOf key)), ("session_id", .session key)], none)
  | .broadcast registry s =>
    let (h, delivered) := h.sendEach s ((h.roomMates registry key).filter (· != key))
    (h.log .trace "Chat message broadcast"
      [("delivered", .number delivered), ("session_id", .session key)], none)
  | .requestClose => (h.modify key Session.requestClose, none)
  | .panic payload => (h, some payload)

/-- Carries out acts in order, up to a panic. -/
def acts (h : Hub) (key : SessionKey) (callback : Session.Callback) :
    List Session.Act → Hub × Option Session.PanicPayload
  | [] => (h, none)
  | a :: rest =>
    match h.act key callback a with
    | (h, none) => h.acts key callback rest
    | (h, some payload) => (h, some payload)

/-- Calls a session's endpoint, and says whether the callback panicked. -/
def callback (h : Hub) (key : SessionKey) (c : Session.Callback) :
    Hub × Option Session.PanicPayload :=
  match h.session? key with
  | none => (h, none)
  | some s =>
    (h.modify key fun s => { s with heard := s.heard ++ [c] }).acts key c
      (s.endpoint.react s.heard c)

end Gateway.Hub
