import Gateway.Proofs.Connection.Stages
import Gateway.Proofs.Hub.Arrivals
import Gateway.Proofs.Session.Assembler

/-!
What a pump does in one step with the session it serves: which message it hands to the endpoint,
which one it takes from the queue and writes, and why it stops.
-/
namespace Gateway

open Session (Callback Message PanicPayload)

/-! ### Messages, wherever they are -/

def Connection.Inbound.message? : Connection.Inbound → Option Message
  | .text s => some (.text s)
  | .binary bytes => some (.binary bytes)
  | _ => none

def Connection.Inbound.ofMessage : Message → Connection.Inbound
  | .text s => .text s
  | .binary bytes => .binary bytes

def Connection.Outgoing.message? : Connection.Outgoing → Option Message
  | .message m => some m
  | _ => none

def Connection.Outgoing.isClose : Connection.Outgoing → Bool
  | .close _ _ => true
  | _ => false

namespace Session

def Message.callback : Message → Callback
  | .text s => .text s
  | .binary bytes => .binary bytes

def Callback.message? : Callback → Option Message
  | .text s => some (.text s)
  | .binary bytes => some (.binary bytes)
  | _ => none

/-- The messages that the endpoint has been handed, oldest first. -/
def handed (s : Session) : List Message := s.heard.filterMap Callback.message?

theorem handed_hear (c : Callback) (s : Session) :
    (hear c s).handed = s.handed ++ c.message?.toList := by
  rw [handed, hear, List.filterMap_append]
  cases c with
  | opened | text | binary | failed | closed => rfl

theorem Message.message?_callback (m : Message) : m.callback.message? = some m := by
  cases m with
  | text | binary => rfl

theorem receive_of_queue {s : Session} {m : Message} {rest : List Message}
    (queue : s.queue = m :: rest) : s.receive = ({ s with queue := rest }, some m) := by
  rw [receive, queue]

/-- A text is well formed, so that only its size can be against it. -/
theorem Assembler.onFrame_text (limit : Nat) (s : String) :
    (new limit).onFrame (Text.bytes s) true
      = (new limit, if limit < s.utf8ByteSize then .error (.messageTooLarge limit)
        else .ok (some s)) := by
  have size : Text.byteLength s.toList = s.utf8ByteSize := by
    have same := Utf8.Sink.size_ofList s.toList
    rw [String.ofList_toList] at same
    exact same.symm
  have judged := verdict limit (Text.bytes s)
  generalize (new limit).onFrame (Text.bytes s) true = result at judged ⊢
  rw [← size]
  cases judged with
  | text bytes small =>
      obtain rfl := Text.encode_injective bytes
      rw [if_neg (Nat.not_lt.mpr small), String.ofList_toList]
  | tooLarge front large =>
      have shorter := front.length_le
      rw [Text.bytes, Text.length_encode, Text.length_encode] at shorter
      rw [if_pos (Nat.lt_of_lt_of_le large shorter)]
  | invalid split stuck left small =>
      exact absurd ((Text.encode_eq_append_iff stuck).mp split).2 left

end Session

namespace Connection.Pump

def Choice.message? : Option Choice → Option Message
  | some (.inbound i) => i.message?
  | _ => none

def queueEdit (p : Pump) (choice : Option Choice) (s : Session) : Session :=
  match p.stage, choice with
  | .starting, _ => s.takeQueue.1
  | .waiting, some .outbound => s.receive.1
  | .unregistering, _ => s.dropQueue
  | _, _ => s

def refusal : Message → String
  | .text _ => "invalid text message"
  | .binary _ => "message too large"

/-- What a pump says as it leaves, if writes reach the peer. A ping that is still owed its answer
gets it from the protocol, with the next thing that is written. -/
def farewell (p : Pump) : Exit → List Outgoing
  | .peer => []
  | .close code reason =>
    if p.writable then .close code reason :: p.owed.toList.map .pong else []

theorem farewell_silent (p : Pump) (exit : Exit) :
    (p.farewell exit).filterMap Outgoing.message? = [] := by
  cases exit with
  | peer => rfl
  | close code reason =>
      rw [farewell]
      split
      · cases p.owed with
        | none | some => rfl
      · rfl

/-- Why a pump between its calls stops, and what it is to say then. -/
inductive Ends (t : Session) (p : Pump) : Option Choice → Exit → Prop
  | unopened {choice : Option Choice} {payload : PanicPayload} : p.stage = .starting →
      t.holder = .session → t.endpoint.panic? t.heard .opened = some payload →
      Ends t p choice (.close 1011 "endpoint failure")
  | unwanted {choice : Option Choice} : p.stage = .checking →
      t.closeRequested = true ∨ t.phase ≠ .opened → Ends t p choice (.close 1001 "server closing")
  | silent : p.stage = .waiting → Ends t p (some (.inbound .idle)) (.close 1001 "idle timeout")
  | refused {choice : Option Choice} {m : Message} : p.stage = .waiting →
      Choice.message? choice = some m → Session.messageCeiling t.config m < m.size →
      Ends t p choice (.close 1009 (refusal m))
  | panicked {choice : Option Choice} {m : Message} {payload : PanicPayload} :
      p.stage = .waiting → Choice.message? choice = some m →
      m.size ≤ Session.messageCeiling t.config m →
      t.endpoint.panic? t.heard m.callback = some payload →
      Ends t p choice (.close 1011 "endpoint failure")
  | peerGone {i : Inbound} : p.stage = .waiting →
      (∃ said, i = .close said) ∨ i = .ended ∨ i = .failed → Ends t p (some (.inbound i)) .peer
  | unheard : p.stage = .waiting → t.queue ≠ [] → p.writable = false →
      Ends t p (some .outbound) .peer
  | unanswered {choice : Option Choice} : p.stage = .checking →
      t.closeRequested = false → t.phase = .opened → p.owed ≠ none → p.writable = false →
      Ends t p choice .peer

def Refuses (t : Session) (p : Pump) (choice : Option Choice) : Prop :=
  p.stage = .waiting → ∀ m, Choice.message? choice = some m →
    Session.messageCeiling t.config m < m.size

/-- What a pump between its calls does in one step: how its session is edited, and what the pump has
written and where it is afterwards. -/
inductive Moves (t : Session) (p q : Pump) (choice : Option Choice) : (Session → Session) → Prop
  | opens : p.stage = .starting → t.holder = .session → q.written = p.written →
      q.stage = .checking → Moves t p q choice (Session.hear .opened ∘ fun s => s.takeQueue.1)
  | failsToOpen {exit : Exit} : p.stage = .starting → t.holder = .session →
      Ends t p choice exit → q.written = p.written → q.stage = .leaving exit →
      Moves t p q choice (Session.hear .opened ∘ fun s => s.takeQueue.1)
  | turnsAway : p.stage = .starting → t.holder ≠ .session → q.written = p.written →
      q.stage = .done → Moves t p q choice id
  | hands {m : Message} : p.stage = .waiting → Choice.message? choice = some m →
      m.size ≤ Session.messageCeiling t.config m → q.written = p.written →
      q.stage = .checking ∨ (∃ exit, Ends t p choice exit ∧ q.stage = .leaving exit) →
      Moves t p q choice (Session.hear m.callback)
  | writes {m : Message} {rest : List Message} : p.stage = .waiting → choice = some .outbound →
      t.queue = m :: rest → q.written = p.written ++ [.message m] → q.stage = .checking →
      Moves t p q choice fun s => s.receive.1
  | goesOn {pongs : List (List UInt8)} : p.stage = .checking ∨ p.stage = .waiting →
      (p.stage = .waiting → Choice.message? choice = none) →
      q.written = p.written ++ pongs.map .pong → q.stage = .checking ∨ q.stage = .waiting →
      Moves t p q choice id
  | stops {exit : Exit} {g : Session → Session} : p.stage = .checking ∨ p.stage = .waiting →
      Refuses t p choice → Ends t p choice exit → q.written = p.written →
      q.stage = .leaving exit → (g t).config = t.config → (g t).holder = t.holder →
      (g t).handed = t.handed → Moves t p q choice g
  | leaves {exit : Exit} : p.stage = .leaving exit → q.written = p.written ++ p.farewell exit →
      q.stage = .unregistering → Moves t p q choice (Session.hear .closed)
  | unregisters : p.stage = .unregistering → q.written = p.written → q.stage = .done →
      Moves t p q choice Session.dropQueue
  | rests : p.stage = .done → q = p → Moves t p q choice id

structure Does (h : Hub) (t : Session) (p : Pump) (choice : Option Choice) (result : Hub × Pump) :
    Prop where
  key : result.2.key = p.key
  assembler : result.2.assembler = p.assembler
  moves : ∃ g, Moves t p result.2 choice g ∧ Hub.Feeds (h.modify p.key g) result.1
    ∧ (p.queueEdit choice t).Accepts [] (g t)

variable {h k : Hub} {t : Session} {p q : Pump} {choice : Option Choice}

theorem refuses_of_checking (checking : p.stage = .checking) : Refuses t p choice := fun waiting =>
  absurd (checking.symm.trans waiting) (by simp)

theorem refuses_of_none (none_comes : Choice.message? choice = none) : Refuses t p choice :=
  fun _ _ comes => absurd (none_comes.symm.trans comes) (by simp)

theorem refuses_of_large {m : Message} (comes : Choice.message? choice = some m)
    (large : Session.messageCeiling t.config m < m.size) : Refuses t p choice := by
  intro _ m' comes'
  obtain rfl := Option.some.inj (comes.symm.trans comes')
  exact large

theorem opened_eq (holder : t.holder = .session) :
    (Session.hear .opened ∘ fun s => s.takeQueue.1) t
      = { t with holder := .writer, heard := t.heard ++ [.opened] } := by
  rw [Function.comp_apply, Session.takeQueue, holder]
  rfl

/-- A pump that has asked for the queue of its session holds it, or has left it. -/
theorem Moves.keeps {g : Session → Session} (moves : Moves t p q choice g)
    (held : t.holder = .session ↔ p.stage = .starting) :
    (g t).config = t.config ∧ (g t).holder ≠ .session ∧ q.stage ≠ .starting := by
  have served {stage : Stage} (now : p.stage = stage) (other : stage ≠ .starting) :
      t.holder ≠ .session := fun holder => other (now.symm.trans (held.mp holder))
  have at_work (turn : p.stage = .checking ∨ p.stage = .waiting) : t.holder ≠ .session := by
    rcases turn with checking | waiting
    · exact served checking (by simp)
    · exact served waiting (by simp)
  cases moves with
  | opens starting holder _ next | failsToOpen starting holder _ _ next =>
      rw [opened_eq holder, next]
      exact ⟨rfl, by simp, by simp⟩
  | turnsAway starting holder _ next => exact ⟨rfl, holder, by simp [next]⟩
  | hands waiting _ _ _ next =>
      refine ⟨rfl, at_work (.inr waiting), ?_⟩
      rcases next with checking | ⟨exit, -, leaving⟩
      · simp [checking]
      · simp [leaving]
  | @writes m rest waiting _ queue _ next =>
      dsimp only
      rw [Session.receive_of_queue queue]
      exact ⟨rfl, at_work (.inr waiting), by simp [next]⟩
  | goesOn turn _ _ next =>
      refine ⟨rfl, at_work turn, ?_⟩
      rcases next with checking | waiting
      · simp [checking]
      · simp [waiting]
  | stops turn _ _ _ next config holder =>
      rw [holder]
      exact ⟨config, at_work turn, by simp [next]⟩
  | leaves leaving _ next => exact ⟨rfl, served leaving (by simp), by simp [next]⟩
  | unregisters _ _ next => exact ⟨rfl, by simp [Session.dropQueue], by simp [next]⟩
  | rests done same => exact ⟨rfl, served done (by simp), by simp [same, done]⟩

/-! ### Calls of the endpoint -/

theorem feeds_callEndpoint (h : Hub) (p : Pump) (c : Callback) :
    Hub.Feeds (h.modify p.key (Session.hear c)) (p.callEndpoint h c).1 := by
  have fed := Hub.feeds_callback h p.key c
  rw [callEndpoint]
  generalize h.callback p.key c = result at fed ⊢
  obtain ⟨k, o⟩ := result
  cases o with
  | none => exact fed
  | some payload => exact fed.trans (Hub.feeds_of_sessions rfl)

theorem callEndpoint_eq (found : h.session? p.key = some t) (c : Callback) :
    (p.callEndpoint h c).2
      = ({ p with calls := p.calls ++ reports p.key (t.endpoint.panic? t.heard c) },
        (t.endpoint.panic? t.heard c).isNone) := by
  obtain ⟨o, hears, calls, fine⟩ := callEndpoint_hears h p c
  have there : h.appSide p.key = some (t.endpoint, t.heard) := by rw [Hub.appSide, found]; rfl
  obtain ⟨-, rfl⟩ := hears.here _ _ there
  exact Prod.ext calls fine

theorem feeds_deliver (h : Hub) (p : Pump) (c : Callback) :
    Hub.Feeds (h.modify p.key (Session.hear c)) (p.deliver h c).1 := by
  have fed := feeds_callEndpoint h p c
  rw [deliver]
  generalize p.callEndpoint h c = result at fed ⊢
  obtain ⟨k, q, fine⟩ := result
  cases fine with
  | true | false => exact fed

theorem deliver_eq (found : h.session? p.key = some t) (c : Callback) :
    (p.deliver h c).2 = { p with
      calls := p.calls ++ reports p.key (t.endpoint.panic? t.heard c)
      stage := match t.endpoint.panic? t.heard c with
        | none => .checking
        | some _ => .leaving .endpointFailure } := by
  have called := callEndpoint_eq found c
  rw [deliver]
  generalize p.callEndpoint h c = result at called ⊢
  obtain ⟨k, q, fine⟩ := result
  obtain ⟨rfl, rfl⟩ := Prod.mk.inj called
  cases t.endpoint.panic? t.heard c with
  | none | some => rfl

theorem feeds_fail (h : Hub) (p : Pump) (e : Session.Error) (exit : Exit) :
    Hub.Feeds (h.modify p.key (Session.hear (.failed e))) (p.fail h e exit).1 := by
  let logged := h.log .debug "Session error"
    [("error", .text e.message), ("session_id", .session p.key)]
  have same : (h.modify p.key (Session.hear (.failed e))).sessions
      = (logged.modify p.key (Session.hear (.failed e))).sessions := rfl
  exact (Hub.feeds_of_sessions same.symm).trans (feeds_callEndpoint logged p (.failed e))

theorem fail_eq (h : Hub) (p : Pump) (e : Session.Error) (exit : Exit) :
    ∃ calls, (p.fail h e exit).2 = { p with calls, stage := .leaving exit } := by
  obtain ⟨o, -, calls, -⟩ := callEndpoint_hears (h.log .debug "Session error"
    [("error", .text e.message), ("session_id", .session p.key)]) p (.failed e)
  refine ⟨p.calls ++ reports p.key o ++ [.report p.key e], ?_⟩
  rw [fail]
  dsimp only
  rw [calls]

/-! ### Stage by stage -/

theorem does_fail {e : Session.Error} {exit : Exit} {r : Pump} {f : Session → Session}
    (edited : k.sessions = (h.modify p.key f).sessions)
    (same : r.key = p.key ∧ r.assembler = p.assembler ∧ r.written = p.written)
    (turn : p.stage = .checking ∨ p.stage = .waiting) (refuses : Refuses t p choice)
    (ends : Ends t p choice exit)
    (keeps : (f t).config = t.config ∧ (f t).holder = t.holder ∧ (f t).handed = t.handed)
    (own : (p.queueEdit choice t).Accepts [] (f t)) : Does h t p choice (r.fail k e exit) := by
  have fed := feeds_fail k r e exit
  obtain ⟨calls, now⟩ := fail_eq k r e exit
  obtain ⟨config, holder, handed⟩ := keeps
  generalize r.fail k e exit = result at fed now
  obtain ⟨l, q⟩ := result
  obtain rfl : q = _ := now
  rw [same.1] at fed
  refine ⟨same.1, same.2.1, Session.hear (.failed e) ∘ f,
    .stops turn refuses ends same.2.2 rfl config holder ?_, fed.of_edit edited,
    own.trans (.quiet rfl rfl rfl)⟩
  rw [Function.comp_apply, Session.handed_hear, handed]
  exact List.append_nil _

theorem does_fail_unedited {e : Session.Error} {exit : Exit} {r : Pump}
    (same : r.key = p.key ∧ r.assembler = p.assembler ∧ r.written = p.written)
    (turn : p.stage = .checking ∨ p.stage = .waiting) (refuses : Refuses t p choice)
    (ends : Ends t p choice exit) (own : p.queueEdit choice t = t) :
    Does h t p choice (r.fail h e exit) := by
  refine does_fail (f := id) (h.sessions_modify_id p.key).symm same turn refuses ends
    ⟨rfl, rfl, rfl⟩ ?_
  rw [own]
  exact .quiet rfl rfl rfl

theorem does_go_on (pongs : List (List UInt8)) (edited : k.sessions = h.sessions)
    (same : q.key = p.key ∧ q.assembler = p.assembler)
    (turn : p.stage = .checking ∨ p.stage = .waiting)
    (quiet : p.stage = .waiting → Choice.message? choice = none)
    (written : q.written = p.written ++ pongs.map .pong)
    (next : q.stage = .checking ∨ q.stage = .waiting) (own : p.queueEdit choice t = t) :
    Does h t p choice (k, q) := by
  refine ⟨same.1, same.2, id, .goesOn turn quiet written next,
    Hub.feeds_of_sessions (edited.trans (h.sessions_modify_id p.key).symm), ?_⟩
  rw [own]
  exact .quiet rfl rfl rfl

theorem does_stop {exit : Exit} (edited : k.sessions = h.sessions)
    (same : q.key = p.key ∧ q.assembler = p.assembler ∧ q.written = p.written)
    (turn : p.stage = .checking ∨ p.stage = .waiting) (refuses : Refuses t p choice)
    (ends : Ends t p choice exit) (next : q.stage = .leaving exit)
    (own : p.queueEdit choice t = t) : Does h t p choice (k, q) := by
  refine ⟨same.1, same.2.1, id, .stops turn refuses ends same.2.2 next rfl rfl rfl,
    Hub.feeds_of_sessions (edited.trans (h.sessions_modify_id p.key).symm), ?_⟩
  rw [own]
  exact .quiet rfl rfl rfl

theorem start_of_unserved (found : h.session? p.key = some t) (holder : t.holder = .session) :
    ∃ k, k.sessions = (h.modify p.key fun s => s.takeQueue.1).sessions
      ∧ k.session? p.key = some { t with holder := .writer } ∧ p.start h = p.deliver k .opened := by
  have taken : t.takeQueue = ({ t with holder := .writer }, true) := by
    rw [Session.takeQueue, holder]
  refine ⟨(h.modify p.key fun s => s.takeQueue.1).log .debug "WebSocket connection open"
    [("path", .text t.path), ("session_id", .session p.key)], rfl, ?_, ?_⟩
  · have now := Hub.session?_modify h p.key p.key fun s => s.takeQueue.1
    rw [if_pos rfl, found, Option.map_some, taken] at now
    exact now
  · rw [start, found]
    exact if_pos (congrArg Prod.snd taken)

/-- A pump that comes later does nothing to the session, and is done. -/
theorem start_of_served (found : h.session? p.key = some t) (held : t.holder ≠ .session) :
    p.start h = (h.log .warn "Session is already being served" [("session_id", .session p.key)],
      { p with calls := [.closeSession p.key], stage := .done }) := by
  rw [start, found]
  dsimp only
  rw [Session.takeQueue_of_held held, if_neg Bool.false_ne_true]

theorem does_start (found : h.session? p.key = some t) (starting : p.stage = .starting) :
    Does h t p choice (p.start h) := by
  have own : p.queueEdit choice t = t.takeQueue.1 := by
    unfold queueEdit
    rw [starting]
  by_cases holder : t.holder = .session
  · obtain ⟨k, edited, there, starts⟩ := start_of_unserved found holder
    have fed := feeds_deliver k p .opened
    have next := deliver_eq there .opened
    rw [starts]
    generalize p.deliver k .opened = result at fed next
    obtain ⟨l, q⟩ := result
    obtain rfl : q = _ := next
    have accepts : (p.queueEdit choice t).Accepts []
        ((Session.hear .opened ∘ fun s => s.takeQueue.1) t) := by
      rw [own]
      exact .quiet rfl rfl rfl
    refine ⟨rfl, rfl, Session.hear .opened ∘ fun s => s.takeQueue.1, ?_, fed.of_edit edited,
      accepts⟩
    cases panics : t.endpoint.panic? t.heard .opened with
    | none => exact .opens starting holder rfl rfl
    | some payload =>
        exact .failsToOpen starting holder (.unopened starting holder panics) rfl rfl
  · rw [start_of_served found holder]
    refine ⟨rfl, rfl, id, .turnsAway starting holder rfl rfl,
      Hub.feeds_of_sessions (h.sessions_modify_id p.key).symm, ?_⟩
    rw [own, Session.takeQueue_of_held holder]
    exact .quiet rfl rfl rfl

theorem does_check (found : h.session? p.key = some t) (checking : p.stage = .checking) :
    Does h t p choice (p.check h) := by
  have own : p.queueEdit choice t = t := by
    unfold queueEdit
    rw [checking]
  have quiet : p.stage = .waiting → Choice.message? choice = none := fun waiting =>
    absurd (checking.symm.trans waiting) (by simp)
  rw [check, found]
  dsimp only
  by_cases unwanted : t.closeRequested = true ∨ t.phase ≠ .opened
  · rw [if_pos (by simpa using unwanted)]
    exact does_stop rfl ⟨rfl, rfl, rfl⟩ (.inl checking) (refuses_of_checking checking)
      (.unwanted checking unwanted) rfl own
  · rw [if_neg (by simpa using unwanted)]
    obtain ⟨unasked, opened⟩ := not_or.mp unwanted
    cases owed : p.owed with
    | none =>
        exact does_go_on [] rfl ⟨rfl, rfl⟩ (.inl checking) quiet
          (List.append_nil _).symm (.inr rfl) own
    | some payload =>
        dsimp only
        by_cases up : p.writable = true
        · rw [if_pos up]
          exact does_go_on [payload] rfl ⟨rfl, rfl⟩ (.inl checking) quiet rfl
            (.inr rfl) own
        · rw [if_neg up]
          have ends : Ends t p choice .peer := .unanswered checking (by simpa using unasked)
            (by simpa using opened) (by simp [owed]) (by simpa using up)
          exact does_fail_unedited ⟨rfl, rfl, rfl⟩ (.inl checking) (refuses_of_checking checking)
            ends own

theorem eq_inbound {m : Message} (comes : Choice.message? choice = some m) :
    choice = some (.inbound (.ofMessage m)) := by
  cases choice with
  | none => exact absurd comes (by simp [Choice.message?])
  | some c =>
      cases c with
      | outbound | closeSignal => exact absurd comes (by simp [Choice.message?])
      | inbound i =>
          cases i with
          | text | binary =>
              obtain rfl := Option.some.inj comes
              rfl
          | ping | pong | close | failed | ended | idle =>
              exact absurd comes (by simp [Choice.message?, Inbound.message?])

theorem takeInbound_ofMessage (h : Hub) {config : Config.SessionConfig}
    (fresh : p.assembler = .new config.maxTextMessageSize) (m : Message) :
    p.takeInbound h config (.ofMessage m)
      = if Session.messageCeiling config m < m.size
        then p.fail h (.messageTooLarge (Session.messageCeiling config m)) (.close 1009 (refusal m))
        else p.deliver h m.callback := by
  cases m with
  | binary bytes => rfl
  | text s =>
      have same : { p with assembler := .new config.maxTextMessageSize } = p := by rw [← fresh]
      rw [Inbound.ofMessage, takeInbound, fresh, Session.Assembler.onFrame_text]
      by_cases large : config.maxTextMessageSize < s.utf8ByteSize
      · rw [if_pos large]
        dsimp only
        rw [same]
        exact (if_pos large).symm
      · rw [if_neg large]
        dsimp only
        rw [same]
        exact (if_neg large).symm

theorem does_message {m : Message} (found : h.session? p.key = some t)
    (waiting : p.stage = .waiting) (fresh : p.assembler = .new t.config.maxTextMessageSize)
    (comes : Choice.message? choice = some m) (own : p.queueEdit choice t = t) :
    Does h t p choice (p.takeInbound h t.config (.ofMessage m)) := by
  rw [takeInbound_ofMessage h fresh]
  by_cases large : Session.messageCeiling t.config m < m.size
  · rw [if_pos large]
    exact does_fail_unedited ⟨rfl, rfl, rfl⟩ (.inr waiting) (refuses_of_large comes large)
      (.refused waiting comes large) own
  · have within := Nat.not_lt.mp large
    have fed := feeds_deliver h p m.callback
    have next := deliver_eq found m.callback
    rw [if_neg large]
    generalize p.deliver h m.callback = result at fed next
    obtain ⟨k, q⟩ := result
    obtain rfl : q = _ := next
    refine ⟨rfl, rfl, Session.hear m.callback, .hands waiting comes within rfl ?_, fed, ?_⟩
    · cases panics : t.endpoint.panic? t.heard m.callback with
      | none => exact .inl rfl
      | some payload => exact .inr ⟨_, .panicked waiting comes within panics, rfl⟩
    · rw [own]
      exact .quiet rfl rfl rfl

theorem does_takeInbound (found : h.session? p.key = some t) (waiting : p.stage = .waiting)
    (fresh : p.assembler = .new t.config.maxTextMessageSize) (i : Inbound) :
    Does h t p (some (.inbound i)) (p.takeInbound h t.config i) := by
  have own : p.queueEdit (some (.inbound i)) t = t := by
    unfold queueEdit
    rw [waiting]
  have failing {e : Session.Error} {exit : Exit} (none_comes : i.message? = none)
      (ends : Ends t p (some (.inbound i)) exit) :
      Does h t p (some (.inbound i)) (p.fail h e exit) :=
    does_fail_unedited ⟨rfl, rfl, rfl⟩ (.inr waiting) (refuses_of_none none_comes) ends own
  cases i with
  | text s => exact does_message (m := .text s) found waiting fresh rfl own
  | binary bytes => exact does_message (m := .binary bytes) found waiting fresh rfl own
  | ping payload | pong =>
      exact does_go_on [] rfl ⟨rfl, rfl⟩ (.inr waiting) (fun _ => rfl)
        (List.append_nil _).symm (.inl rfl) own
  | close said =>
      exact does_stop rfl ⟨rfl, rfl, rfl⟩ (.inr waiting) (refuses_of_none rfl)
        (.peerGone waiting (.inl ⟨said, rfl⟩)) rfl own
  | failed => exact failing rfl (.peerGone waiting (.inr (.inr rfl)))
  | ended =>
      exact does_stop rfl ⟨rfl, rfl, rfl⟩ (.inr waiting) (refuses_of_none rfl)
        (.peerGone waiting (.inr (.inl rfl))) rfl own
  | idle => exact failing rfl (.silent waiting)

theorem does_takeOutbound (h : Hub) (t : Session) (waiting : p.stage = .waiting) :
    Does h t p (some .outbound) (p.takeOutbound h t) := by
  have own : p.queueEdit (some .outbound) t = t.receive.1 := by
    unfold queueEdit
    rw [waiting]
  rw [takeOutbound]
  cases queue : t.queue with
  | nil =>
      have nothing : t.receive = (t, none) := by rw [Session.receive, queue]
      rw [nothing]
      exact does_go_on [] rfl ⟨rfl, rfl⟩ (.inr waiting) (fun _ => rfl)
        (List.append_nil _).symm (.inr waiting) (by rw [own, nothing])
  | cons m rest =>
      have received := Session.receive_of_queue queue
      rw [received]
      dsimp only
      by_cases up : p.writable = true
      · rw [if_pos up]
        refine ⟨rfl, rfl, fun s => s.receive.1, .writes waiting rfl queue rfl rfl,
          Hub.feeds_of_sessions rfl, ?_⟩
        rw [own]
        exact .quiet rfl rfl rfl
      · rw [if_neg up]
        have ends : Ends t p (some .outbound) .peer :=
          .unheard waiting (by simp [queue]) (by simpa using up)
        refine does_fail (f := fun s => s.receive.1) rfl ⟨rfl, rfl, rfl⟩ (.inr waiting)
          (refuses_of_none rfl) ends ?_ ?_
        · rw [received]
          exact ⟨rfl, rfl, rfl⟩
        · rw [own]
          exact .quiet rfl rfl rfl

theorem does_choose (found : h.session? p.key = some t) (waiting : p.stage = .waiting)
    (fresh : p.assembler = .new t.config.maxTextMessageSize) (c : Choice) :
    Does h t p (some c) (p.choose h c) := by
  rw [choose, found]
  cases c with
  | inbound i => exact does_takeInbound found waiting fresh i
  | outbound => exact does_takeOutbound h t waiting
  | closeSignal =>
      have own : p.queueEdit (some .closeSignal) t = t := by
        unfold queueEdit
        rw [waiting]
      dsimp only
      by_cases asked : t.closeRequested = true
      · rw [if_pos asked]
        exact does_go_on [] rfl ⟨rfl, rfl⟩ (.inr waiting) (fun _ => rfl)
          (List.append_nil _).symm (.inl rfl) own
      · rw [if_neg asked]
        exact does_go_on [] rfl ⟨rfl, rfl⟩ (.inr waiting) (fun _ => rfl)
          (List.append_nil _).symm (.inr waiting) own

theorem writeClose_keeps (p : Pump) (code : Nat) (reason : String) :
    (p.writeClose code reason).key = p.key ∧ (p.writeClose code reason).assembler = p.assembler
      ∧ (p.writeClose code reason).written
        = p.written ++ .close code reason :: p.owed.toList.map .pong := by
  obtain ⟨key, assembler, stage, calls, writable, owed, written, deadline⟩ := p
  cases owed with
  | none => exact ⟨rfl, rfl, rfl⟩
  | some payload => exact ⟨rfl, rfl, List.append_assoc _ _ _⟩

theorem does_leave {exit : Exit} (leaving : p.stage = .leaving exit) :
    Does h t p choice (p.leave h exit) := by
  have own : p.queueEdit choice t = t := by
    unfold queueEdit
    rw [leaving]
  have last {k : Hub} {r : Pump} (logged : k.sessions = h.sessions)
      (same : r.key = p.key ∧ r.assembler = p.assembler)
      (written : r.written = p.written ++ p.farewell exit) : Does h t p choice
        ((r.callEndpoint k .closed).1,
          { (r.callEndpoint k .closed).2.1 with stage := .unregistering }) := by
    have fed := feeds_callEndpoint k r .closed
    obtain ⟨o, -, calls, -⟩ := callEndpoint_hears k r .closed
    rw [calls]
    rw [same.1] at fed
    refine ⟨same.1, same.2, Session.hear .closed, .leaves leaving written rfl,
      fed.of_edit (f := id) (logged.trans (h.sessions_modify_id p.key).symm), ?_⟩
    rw [own]
    exact .quiet rfl rfl rfl
  cases exit with
  | peer => exact last rfl ⟨rfl, rfl⟩ (List.append_nil _).symm
  | close code reason =>
      by_cases up : p.writable = true
      · obtain ⟨key, assembler, written⟩ := p.writeClose_keeps code reason
        rw [leave, if_pos up]
        refine last rfl ⟨key, assembler⟩ ?_
        rw [written, farewell, if_pos up]
      · have said : p.written = p.written ++ p.farewell (.close code reason) := by
          rw [farewell, if_neg up, List.append_nil]
        rw [leave, if_neg up]
        exact last rfl ⟨rfl, rfl⟩ said

/-- What a pump between its calls does, whatever the choice. -/
theorem step_does (found : h.session? p.key = some t) (idle : p.calls = [])
    (fresh : p.assembler = .new t.config.maxTextMessageSize) (choice : Option Choice) :
    Does h t p choice (p.step h choice) := by
  unfold step
  rw [idle]
  cases stage : p.stage with
  | starting => exact does_start found stage
  | checking => exact does_check found stage
  | waiting =>
      cases choice with
      | none =>
          have own : p.queueEdit none t = t := by
            unfold queueEdit
            rw [stage]
          exact does_go_on [] rfl ⟨rfl, rfl⟩ (.inr stage) (fun _ => rfl)
            (List.append_nil _).symm (.inr stage) own
      | some c => exact does_choose found stage fresh c
  | leaving exit => exact does_leave stage
  | unregistering =>
      have own : p.queueEdit choice t = t.dropQueue := by
        unfold queueEdit
        rw [stage]
      refine ⟨rfl, rfl, Session.dropQueue, .unregisters stage rfl rfl,
        Hub.feeds_of_sessions rfl, ?_⟩
      rw [own]
      exact .quiet rfl rfl rfl
  | done =>
      have own : p.queueEdit choice t = t := by
        unfold queueEdit
        rw [stage]
      refine ⟨rfl, rfl, id, .rests stage rfl,
        Hub.feeds_of_sessions (h.sessions_modify_id p.key).symm, ?_⟩
      rw [own]
      exact .quiet rfl rfl rfl

end Connection.Pump
end Gateway
