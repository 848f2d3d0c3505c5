import Gateway.Config.Validation
import Gateway.Proofs.Connection.Ending
import Gateway.Proofs.Connection.Fragments

/-!
Messages above their ceiling. The connection itself takes frames up to the ceiling for frames, and
messages up to the larger of the two ceilings. What it does not take it does not hand on either:
then it fails, and nobody is told that a message was too large. Only what the connection takes and
the session does not is reported as too large: `excess_reported_or_cut_off`.
-/
namespace Gateway

def Config.SessionConfig.limits (c : SessionConfig) : Connection.Limits :=
  ⟨c.maxFrameSize, c.maxMessageSize⟩

namespace Connection

open Session (Message)

namespace Kind

def ceiling (c : Config.SessionConfig) : Kind → Nat
  | .text => c.maxTextMessageSize
  | .binary => c.maxBinaryMessageSize

def refusal : Kind → String
  | .text => "invalid text message"
  | .binary => "message too large"

/-- A payload can be read as a message of a kind: whatever is binary, and text if it is well
formed. -/
def Reads : Kind → List UInt8 → Prop
  | .text, payload => ∃ s, payload = Text.bytes s
  | .binary, _ => True

variable {kind : Kind} {payload : List UInt8} {m : Message}

theorem ceiling_message (whole : kind.message? payload = some m) (c : Config.SessionConfig) :
    Session.messageCeiling c m = kind.ceiling c ∧ Pump.refusal m = kind.refusal := by
  cases kind with
  | text =>
      obtain ⟨s, -, rfl⟩ := Option.map_eq_some_iff.mp whole
      exact ⟨rfl, rfl⟩
  | binary =>
      obtain rfl := Option.some.inj whole
      exact ⟨rfl, rfl⟩

theorem reads_iff : kind.Reads payload ↔ ∃ m, kind.message? payload = some m := by
  cases kind with
  | binary => exact ⟨fun _ => ⟨_, rfl⟩, fun _ => trivial⟩
  | text =>
      refine ⟨fun ⟨s, bytes⟩ => ⟨.text s, ?_⟩, fun ⟨m, whole⟩ => ?_⟩
      · rw [message?, wholeText_eq_some.mpr bytes]
        rfl
      · obtain ⟨s, text, -⟩ := Option.map_eq_some_iff.mp whole
        exact ⟨s, wholeText_eq_some.mp text⟩

end Kind

theorem Deed.keepsOff_of_spares {key : SessionKey} {d : Deed} (spares : d.spares key = true) :
    d.keepsOff key = true := by
  cases d with
  | serve p choice =>
      obtain ⟨apart, -⟩ : p.key ≠ key ∧ p.calls.head? ≠ some (.goLive key) := by
        simpa [Deed.spares] using spares
      simp [keepsOff, apart]
  | call | send | requestClose | make | enlist | dismiss | wait => rfl

namespace Serving

variable {key : SessionKey} {s : Serving} {t : Session} {kind : Kind} {payload : List UInt8}
  {frames : List Frame}

/-- What the connection takes and can read goes to the pump, which tells that it is too large. -/
theorem takes_excess {c : Config.SessionConfig} (attends : Attends key c s t)
    (waiting : s.pump.stage = .waiting) (calls : s.pump.calls = [])
    (large : kind.ceiling c < payload.length) (admitted : c.limits.admits payload frames)
    (reads : kind.Reads payload) :
    s.pump.step s.hub (some (.inbound (kind.arrival c.limits payload frames)))
      = s.pump.fail s.hub (.messageTooLarge (kind.ceiling c)) (.close 1009 kind.refusal) := by
  obtain ⟨serves, fresh, found, rfl, -⟩ := attends
  obtain ⟨m, whole⟩ := Kind.reads_iff.mp reads
  obtain ⟨ceiling, refusal⟩ := Kind.ceiling_message whole t.config
  have above : Session.messageCeiling t.config m < m.size := by
    rw [ceiling, Kind.size_message whole]
    exact large
  rw [← serves] at found
  rw [Pump.step_of_inbound found calls waiting, arrival_of_message admitted whole, ← ceiling,
    ← refusal]
  exact (Pump.takeInbound_ofMessage s.hub fresh m).trans (if_pos above)

/-- What the connection does not take or cannot read fails before the pump has seen it. -/
theorem takes_failure {c : Config.SessionConfig} (attends : Attends key c s t)
    (waiting : s.pump.stage = .waiting) (calls : s.pump.calls = [])
    (refused : ¬(c.limits.admits payload frames ∧ kind.Reads payload)) :
    s.pump.step s.hub (some (.inbound (kind.arrival c.limits payload frames)))
      = s.pump.fail s.hub (.transport none) .peer := by
  obtain ⟨serves, -, found, -, -⟩ := attends
  have failed : kind.arrival c.limits payload frames = .failed := by
    by_cases admitted : c.limits.admits payload frames
    · refine arrival_of_unreadable (Option.eq_none_iff_forall_ne_some.mpr fun m whole => ?_)
      exact refused ⟨admitted, Kind.reads_iff.mpr ⟨m, whole⟩⟩
    · exact if_neg admitted
  rw [← serves] at found
  rw [failed, Pump.step_of_inbound found calls waiting]
  rfl

/-- However a connection goes, among whatever else happens: when the pump waits and takes what the
frames of a message above its ceiling give, it comes to an end whenever it is left to itself. If the
connection takes all frames and the whole message, and the message can be read, then endpoint and
listeners are told that it is too large, and the close frame has the code for that. If not, they are
told of a failed transport, and there is no close frame. -/
theorem excess_reported_or_cut_off {h : Hub} (found : h.session? key = some t)
    (registered : t.phase ≠ .created) (unserved : t.holder = .session)
    (sent : Fragments kind.opcode payload frames)
    (large : kind.ceiling t.config < payload.length)
    (first : Option Pump.Choice) (before : List Turn)
    (spares : ∀ d, .elsewhere d ∈ before → d.spares key = true) :
    let s := (Serving.mk h (.new key t.config) []).run (.own first :: before)
    s.pump.stage = .waiting → s.pump.calls = [] →
    let i := kind.arrival t.config.limits payload frames
    let taken := t.config.limits.admits payload frames ∧ kind.Reads payload
    Gives t.config.limits none frames i ∧ ∀ after,
      (∀ d, .elsewhere d ∈ after → d.spares key = true) →
      let all := .own (some (.inbound i)) :: after
      (∃ n, (s.run (all ++ .replicate n (.own none))).pump.hasEnded = true)
        ∧ ((s.run all).pump.hasEnded = true →
          (taken → EndsOver key t (.messageTooLarge (kind.ceiling t.config))
            (.close 1009 kind.refusal) s all)
          ∧ (¬taken → EndsOver key t (.transport none) .peer s all)) := by
  intro s waiting calls i taken
  have sound : Sound key t.endpoint t.heard s :=
    (sound_start found registered unserved first).run spares
  obtain ⟨t', attends⟩ : ∃ t', Attends key t.config s t' := by
    obtain ⟨t₁, ms, farewell, traffic, started⟩ := (traffic_new found unserved).own rfl first
    obtain ⟨t', _, _, later⟩ :=
      traffic.run started fun d among => Deed.keepsOff_of_spares (spares d among)
    exact ⟨t', later.attends⟩
  obtain ⟨made, under, -⟩ := id sound
  refine ⟨fragments_give t.config.limits sent, fun after spares' => ?_⟩
  refine ⟨?_, fun ended => ⟨fun both => ?_, fun refused => ?_⟩⟩
  · by_cases both : taken
    · exact ends_after_failure under calls
        (takes_excess attends waiting calls large both.1 both.2) after
    · exact ends_after_failure under calls (takes_failure attends waiting calls both) after
  · exact sound.ends_over calls (takes_excess attends waiting calls large both.1 both.2) spares'
      ended
  · exact sound.ends_over calls (takes_failure attends waiting calls refused) spares' ended

def withCeilings (text binary frame : Nat) : Config.ServerConfig where
  websocket := { maxTextMessageSize := text, maxBinaryMessageSize := binary, maxFrameSize := frame }
  mappings := [{ pathSpec := "/echo", endpoint := "echo" }]

def ofServer (c : Config.ServerConfig) : Session where
  id := .made 0
  matched := { spec := .default, path := [], covered := [] }
  config := c.websocket
  subprotocol := none
  endpoint := .echo
  phase := .opened

def watched (t : Session) : Hub where
  sessions := [t]
  registry := { live := [0], listeners := [.logging, { name := "watch" }] }

/-- A text of five bytes in two pieces, with a ping in between. -/
def fiveBytes : List Frame :=
  [{ opcode := 1, final := false, payload := Text.bytes "012" }, { opcode := 9, payload := [] },
    { opcode := 0, payload := Text.bytes "34" }]

def untilPing : List Turn := [.own none, .own (some (.inbound (.ping []))), .own none]

def toTheEnd : List Turn := .replicate 20 (.own none)

theorem fragments_fiveBytes :
    Fragments Kind.text.opcode (Text.bytes "012" ++ Text.bytes "34") fiveBytes :=
  .more 1 _ (.aside ⟨rfl, rfl, .inl rfl, Nat.zero_le _⟩ (.last 0 _))

/-- With four bytes for a text and eight for a binary message, five bytes of text are reported as
too large. -/
theorem excess_reported_between_the_ceilings :
    let t := ofServer (withCeilings 4 8 4)
    let s := (Serving.mk (watched t) (.new 0 t.config) []).run (.own none :: untilPing)
    let payload := Text.bytes "012" ++ Text.bytes "34"
    (withCeilings 4 8 4).errors = [] ∧ t.phase ≠ .created ∧ t.holder = .session
      ∧ Fragments Kind.text.opcode payload fiveBytes ∧ Kind.text.ceiling t.config < payload.length
      ∧ s.pump.stage = .waiting ∧ s.pump.calls = []
      ∧ readAll t.config.limits none fiveBytes = [.ping [], .text "01234"]
      ∧ EndsOver 0 t (.messageTooLarge 4) (.close 1009 "invalid text message") s
        (.own (some (.inbound (.text "01234"))) :: toTheEnd) := by
  intro t s payload
  have before : ∀ d, .elsewhere d ∈ untilPing → d.spares 0 = true := by simp [untilPing]
  have after : ∀ d, .elsewhere d ∈ toTheEnd → d.spares 0 = true := by simp [toTheEnd]
  have found : (watched t).session? 0 = some t := rfl
  have large : Kind.text.ceiling t.config < payload.length := by decide +kernel
  have waiting : s.pump.stage = .waiting := by decide +kernel
  have calls : s.pump.calls = [] := by decide +kernel
  have arrival : Kind.text.arrival t.config.limits payload fiveBytes = .text "01234" := by
    decide +kernel
  have admitted : t.config.limits.admits payload fiveBytes := by decide +kernel
  have reads : Kind.text.Reads payload := ⟨"01234", by decide +kernel⟩
  obtain ⟨-, ends⟩ := excess_reported_or_cut_off found (by simp [t, ofServer]) rfl
    fragments_fiveBytes large none untilPing before waiting calls
  have ended := (ends toTheEnd after).2
  rw [arrival] at ended
  refine ⟨by decide +kernel, by simp [t, ofServer], rfl, fragments_fiveBytes, large, waiting, calls,
    by decide +kernel, (ended (by decide +kernel)).1 ⟨admitted, reads⟩⟩

/-- With four bytes for a message of either kind, nobody is told that five bytes of text are too
large. Endpoint and listeners hear of a failed transport, and no close frame is written. -/
theorem excess_not_always_reported :
    let t := ofServer (withCeilings 4 4 4)
    let start := Serving.mk (watched t) (.new 0 t.config) []
    let s := start.run (.own none :: untilPing)
    let payload := Text.bytes "012" ++ Text.bytes "34"
    let ended := s.run (.own (some (.inbound .failed)) :: toTheEnd)
    (withCeilings 4 4 4).errors = [] ∧ Fragments Kind.text.opcode payload fiveBytes
      ∧ t.config.maxTextMessageSize < payload.length
      ∧ s.pump.stage = .waiting ∧ s.pump.calls = []
      ∧ readAll t.config.limits none fiveBytes = [.ping [], .failed]
      ∧ ended.pump.hasEnded = true ∧ ended.pump.written = [.pong []]
      ∧ (ended.hub.session? 0).map Session.heard
        = some [.opened, .failed (.transport none), .closed]
      ∧ Hub.errorsTold ended.past = [((0, .transport none), .logging),
        ((0, .transport none), { name := "watch" })] := by
  exact ⟨by decide +kernel, fragments_fiveBytes, by decide +kernel, by decide +kernel,
    by decide +kernel, by decide +kernel, by decide +kernel, by decide +kernel, by decide +kernel,
    by decide +kernel⟩

end Serving
end Connection
end Gateway
