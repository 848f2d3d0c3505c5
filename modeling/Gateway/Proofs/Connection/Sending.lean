import Gateway.Config.Validation
import Gateway.Proofs.Connection.Passing

/-!
The frames in which messages go out. A session refuses a message above its limit for sending. What
it has accepted goes out whole, in one frame, also where its policy has messages split that do not
fit into a frame: `messages_go_out_whole`.
-/
namespace Gateway

open Session (Message)

namespace Session

def Message.payload : Message → List UInt8
  | .text s => Text.bytes s
  | .binary bytes => bytes

def Message.opcode : Message → Nat
  | .text _ => 1
  | .binary _ => 2

/-- The frame in which a message is written. A server does not mask. -/
def Message.frame (m : Message) : Connection.Frame where
  opcode := m.opcode
  masked := false
  payload := m.payload

theorem Message.length_payload (m : Message) : m.payload.length = m.size := by
  cases m with
  | binary bytes => rfl
  | text s =>
      rw [payload, Text.bytes, Text.length_encode]
      have same := Utf8.Sink.size_ofList s.toList
      rw [String.ofList_toList] at same
      exact same.symm

variable {s t : Session} {m : Message} {ms : List Message}

theorem Accepts.within (accepts : s.Accepts ms t) : ∀ m ∈ ms, m.size ≤ sendLimit s.config m := by
  induction accepts with
  | quiet => exact fun m among => absurd among List.not_mem_nil
  | send accepted =>
      intro m among
      obtain rfl := List.mem_singleton.mp among
      exact (send_ok_iff.mp accepted).1
  | trans first _ within within' =>
      intro m among
      rcases List.mem_append.mp among with old | new
      · exact within m old
      · rw [← first.gains.config]
        exact within' m new

/-- Only where messages are to be split, the limit for sending is above the ceiling for frames. -/
theorem sendLimit_le (c : Config.SessionConfig) (m : Message) :
    sendLimit c m ≤ messageCeiling c m
      ∧ (c.autoFragment = false → sendLimit c m ≤ c.maxFrameSize) :=
  (le_sendLimit_iff c m _).mp (Nat.le_refl _)

end Session

namespace Connection

def Outgoing.dataFrame? (o : Outgoing) : Option Frame := o.message?.map Message.frame

namespace Serving

variable {key : SessionKey} {s start : Serving} {turns : List Turn} {accepted : List Message}
  {c : Config.SessionConfig} {t : Session}

theorem queueEdit_config (s : Serving) (turn : Turn) (a : Session) :
    (s.queueEdit turn a).config = a.config := by
  have receives (a : Session) : a.receive.1.config = a.config := by
    rw [Session.receive]
    cases a.queue with
    | nil | cons => rfl
  have hands_over (a : Session) : a.takeQueue.1.config = a.config := by
    rw [Session.takeQueue]
    cases a.holder with
    | session | writer | nobody => rfl
  cases turn with
  | elsewhere | wire => rfl
  | own choice =>
      rw [queueEdit]
      split
      · unfold Pump.queueEdit
        split
        · exact hands_over a
        · exact receives a
        · rfl
        · rfl
      · rfl

/-- All that a session accepts, whoever sends it, is within the limit of its policy. -/
theorem Accepts.within (accepts : Accepts key s turns accepted)
    (policy : ∀ a, s.hub.session? key = some a → a.config = c) :
    ∀ m ∈ accepted, m.size ≤ Session.sendLimit c m := by
  induction accepts with
  | nil => exact fun m among => absurd among List.not_mem_nil
  | @cons s turn rest a b ms more found now accepts _ ih =>
      have config : (s.queueEdit turn a).config = c :=
        (s.queueEdit_config turn a).trans (policy a found)
      intro m among
      rcases List.mem_append.mp among with first | later
      · rw [← config]
        exact accepts.within m first
      · refine ih (fun b' now' => ?_) m later
        obtain rfl := Option.some.inj (now.symm.trans now')
        exact accepts.gains.config.trans config

def dataFrames (s : Serving) : List Frame := s.pump.written.filterMap Outgoing.dataFrame?

theorem dataFrames_eq (s : Serving) :
    s.dataFrames = (s.pump.written.filterMap Outgoing.message?).map Message.frame := by
  rw [List.map_filterMap]
  rfl

/-- However a connection goes, among whatever else happens: the data frames that go out are those of
a beginning of the messages that were queued and that the session has accepted since, one frame for
each, with just that message in it. No message is above its ceiling. Where messages are not to be
split, every frame is within the ceiling for frames. Where they are, nothing splits them, and only
those frames are within it whose messages are. -/
theorem messages_go_out_whole {h : Hub} (found : h.session? key = some t)
    (unserved : t.holder = .session)
    (allowed : ∀ m ∈ t.queue, m.size ≤ Session.sendLimit t.config m)
    (choice : Option Pump.Choice) (turns : List Turn)
    (off : ∀ d, .elsewhere d ∈ turns → d.keepsOff key = true) :
    let start : Serving := ⟨h, .new key t.config, []⟩
    let all := .own choice :: turns
    ∃ sent accepted, start.Accepts key all accepted ∧ sent <+: t.queue ++ accepted
      ∧ (start.run all).dataFrames = sent.map Message.frame
      ∧ ∀ m ∈ sent, m.size ≤ Session.messageCeiling t.config m
        ∧ (m.frame.payload.length ≤ t.config.maxFrameSize
          ↔ t.config.autoFragment = true → m.size ≤ t.config.maxFrameSize) := by
  intro start all
  obtain ⟨-, t', accepted, farewell, -, accepts, flow⟩ :=
    (messages_pass_in_order found choice turns off).1 unserved
  have within : ∀ m ∈ accepted, m.size ≤ Session.sendLimit t.config m := by
    refine accepts.within fun a there => ?_
    rw [← Option.some.inj (found.symm.trans there)]
  refine ⟨_, accepted, accepts, flow.passed.written, dataFrames_eq _, ?_⟩
  intro m among
  have limited : m.size ≤ Session.sendLimit t.config m := by
    rcases List.mem_append.mp (flow.passed.written.subset among) with queued | new
    · exact allowed m queued
    · exact within m new
  obtain ⟨ceiling, fits⟩ := Session.sendLimit_le t.config m
  refine ⟨Nat.le_trans limited ceiling, ?_⟩
  rw [Message.frame, m.length_payload]
  cases splits : t.config.autoFragment with
  | true => exact ⟨fun small _ => small, fun small => small rfl⟩
  | false =>
      have small := Nat.le_trans limited (fits splits)
      exact ⟨fun _ _ => small, fun _ => small⟩

def withSmallFrames (splits : Bool) : Config.ServerConfig where
  websocket := { maxFrameSize := 8, autoFragment := splits }
  mappings := [{ pathSpec := "/echo", endpoint := "echo" }]

def smallSession (splits : Bool) : Session where
  id := .made 0
  matched := { spec := .default, path := [], covered := [] }
  config := (withSmallFrames splits).websocket
  subprotocol := none
  endpoint := .echo
  phase := .opened

def smallFrames (splits : Bool) : Hub where
  sessions := [smallSession splits]
  registry := { live := [0] }

/-- Somebody sends two texts, of nine bytes and of five, and the pump writes what is queued. -/
def sendingTurns : List Turn :=
  [.elsewhere (.send 0 (.text "too large")), .elsewhere (.send 0 (.text "small")), .own none,
    .own (some .outbound), .own none, .own (some .outbound), .own none]

theorem messages_go_out_whole_or_are_refused :
    let t := smallSession false
    let start := Serving.mk (smallFrames false) (.new 0 t.config) []
    let all := .own none :: sendingTurns
    (withSmallFrames false).errors = [] ∧ (smallFrames false).session? 0 = some t
      ∧ t.holder = .session ∧ t.queue = []
      ∧ (∀ d, .elsewhere d ∈ sendingTurns → d.keepsOff 0 = true)
      ∧ (start.run all).pump.written = [.message (.text "small")]
      ∧ ∃ sent accepted, start.Accepts 0 all accepted ∧ sent <+: t.queue ++ accepted
        ∧ (start.run all).dataFrames = sent.map Message.frame
        ∧ ∀ m ∈ sent, m.frame.payload.length ≤ t.config.maxFrameSize := by
  intro t start all
  have off : ∀ d, .elsewhere d ∈ sendingTurns → d.keepsOff 0 = true := by
    intro d among
    rcases (by simpa [sendingTurns] using among : d = _ ∨ d = _) with rfl | rfl
    · rfl
    · rfl
  have found : (smallFrames false).session? 0 = some t := rfl
  have allowed : ∀ m ∈ t.queue, m.size ≤ Session.sendLimit t.config m :=
    fun m among => absurd among List.not_mem_nil
  obtain ⟨sent, accepted, accepts, first, frames, sizes⟩ :=
    messages_go_out_whole found rfl allowed none sendingTurns off
  refine ⟨by decide +kernel, found, rfl, rfl, off, by decide +kernel, sent, accepted, accepts,
    first, frames, fun m among => (sizes m among).2.mpr fun splits => ?_⟩
  exact absurd splits Bool.false_ne_true

/-- The policy of an accepted configuration may have messages split that are above the ceiling for
frames. They are accepted, and go out above it. -/
theorem not_every_frame_within_ceiling :
    let t := smallSession true
    let start := Serving.mk (smallFrames true) (.new 0 t.config) []
    (withSmallFrames true).errors = [] ∧ (smallFrames true).session? 0 = some t
      ∧ t.config = (withSmallFrames true).websocket ∧ (t.send (.text "too large")).2 = .ok ()
      ∧ (start.run (.own none :: sendingTurns)).dataFrames
        = [(Message.text "too large").frame, (Message.text "small").frame]
      ∧ t.config.maxFrameSize < (Message.text "too large").frame.payload.length := by
  refine ⟨by decide +kernel, rfl, rfl, ?_, by decide +kernel, by decide +kernel⟩
  exact Session.send_ok_iff.mpr (by decide +kernel)

end Serving
end Connection
end Gateway
