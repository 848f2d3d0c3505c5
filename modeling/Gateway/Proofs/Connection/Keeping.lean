import Gateway.Proofs.Connection.Moves

/-!
What the steps of a pump keep. Between its calls a pump edits the session it serves, which stays as
it was made, and lets the endpoint work; a relation between hubs that both of these keep is kept by
every such step.
-/
namespace Gateway

namespace Session

variable {s : Session}

theorem asMade_receive : s.receive.1.asMade = s.asMade := by
  rw [receive]
  cases s.queue with
  | nil | cons => rfl

theorem asMade_takeQueue : s.takeQueue.1.asMade = s.asMade := by
  rw [takeQueue]
  cases s.holder with
  | session | writer | nobody => rfl

end Session

namespace Connection

/-- A relation between a hub and what the pump of a session makes of it between its calls: the
endpoint's work keeps it, and so do edits of the session that leave it as it was made. -/
structure KeptByPump (key : SessionKey) (R : Hub → Hub → Prop) : Prop
    extends toAtWork : Hub.KeptAtWork R where
  edit (h : Hub) {f : Session → Session} :
    (∀ s : Session, (f s).asMade = s.asMade) → R h (h.modify key f)

namespace KeptByPump

variable {key : SessionKey} {R : Hub → Hub → Prop} (kept : KeptByPump key R) {h k : Hub} {p : Pump}
include kept

theorem callback (h : Hub) (c : Session.Callback) : R h (h.callback key c).1 := by
  cases found : h.session? key with
  | none =>
      rw [Hub.callback, found]
      exact kept.of_eq rfl rfl rfl
  | some s =>
      have heard : R h (h.modify key (Session.hear c)) := kept.edit h fun _ => rfl
      rw [Hub.callback_of_session found]
      exact kept.trans heard (kept.toAtWork.acts _ key c _)

theorem callEndpoint (served : p.key = key) (before : R h k) (c : Session.Callback) :
    R h (p.callEndpoint k c).1 := by
  subst served
  have called := kept.trans before (kept.callback k c)
  rw [Pump.callEndpoint]
  generalize k.callback p.key c = result at called ⊢
  obtain ⟨l, o⟩ := result
  cases o with
  | none => exact called
  | some payload => exact kept.trans called (kept.of_eq rfl rfl rfl)

theorem deliver (served : p.key = key) (before : R h k) (c : Session.Callback) :
    R h (p.deliver k c).1 := by
  have called := kept.callEndpoint served before c
  rw [Pump.deliver]
  generalize p.callEndpoint k c = result at called ⊢
  obtain ⟨l, q, fine⟩ := result
  cases fine with
  | true | false => exact called

theorem fail (served : p.key = key) (before : R h k) (e : Session.Error) (exit : Exit) :
    R h (p.fail k e exit).1 := by
  have logged : R k (k.log .debug "Session error"
    [("error", .text e.message), ("session_id", .session p.key)]) := kept.of_eq rfl rfl rfl
  exact kept.callEndpoint served (kept.trans before logged) (.failed e)

theorem takeInbound (h : Hub) (served : p.key = key) (config : Config.SessionConfig) (i : Inbound) :
    R h (p.takeInbound h config i).1 := by
  have still : R h h := kept.of_eq rfl rfl rfl
  cases i with
  | text s =>
      rw [Pump.takeInbound]
      split
      · apply kept.deliver
        · exact served
        · exact still
      · exact still
      · apply kept.fail
        · exact served
        · split
          · exact kept.of_eq rfl rfl rfl
          · exact still
  | binary bytes =>
      rw [Pump.takeInbound]
      split
      · exact kept.fail served still _ _
      · exact kept.deliver served still _
  | ping | pong | close | ended => exact kept.of_eq rfl rfl rfl
  | failed | idle => exact kept.fail served still _ _

theorem start (h : Hub) (served : p.key = key) : R h (p.start h).1 := by
  subst served
  rw [Pump.start]
  split
  · exact kept.of_eq rfl rfl rfl
  · split
    · have taken : R h (h.modify p.key fun s => s.takeQueue.1) :=
        kept.edit h fun s => s.asMade_takeQueue
      apply kept.deliver rfl
      exact kept.trans taken (kept.of_eq rfl rfl rfl)
    · exact kept.of_eq rfl rfl rfl

theorem check (h : Hub) (served : p.key = key) : R h (p.check h).1 := by
  have still : R h h := kept.of_eq rfl rfl rfl
  rw [Pump.check]
  split
  · exact still
  · split
    · exact still
    · dsimp only
      split
      · exact still
      · split
        · exact still
        · apply kept.fail
          · exact served
          · exact still

theorem choose (h : Hub) (served : p.key = key) (c : Pump.Choice) : R h (p.choose h c).1 := by
  have still : R h h := kept.of_eq rfl rfl rfl
  rw [Pump.choose]
  split
  · exact still
  · cases c with
    | inbound i => exact kept.takeInbound h served _ i
    | outbound =>
        dsimp only
        rw [Pump.takeOutbound]
        split
        · exact still
        · subst served
          have received : R h (h.modify p.key fun s => s.receive.1) :=
            kept.edit h fun s => s.asMade_receive
          dsimp only
          split
          · exact received
          · exact kept.fail rfl received _ _
    | closeSignal =>
        dsimp only
        split
        · exact still
        · exact still

theorem leave (h : Hub) (served : p.key = key) (exit : Exit) : R h (p.leave h exit).1 := by
  cases exit with
  | peer => exact kept.callEndpoint served (kept.of_eq rfl rfl rfl) .closed
  | close code reason =>
      rw [Pump.leave]
      dsimp only
      split
      · exact kept.callEndpoint ((p.writeClose_keeps code reason).1.trans served)
          (kept.of_eq rfl rfl rfl) .closed
      · apply kept.callEndpoint served
        exact kept.of_eq rfl rfl rfl

theorem step (h : Hub) (served : p.key = key) (idle : p.calls = []) (choice : Option Pump.Choice) :
    R h (p.step h choice).1 := by
  unfold Pump.step
  rw [idle]
  cases p.stage with
  | starting => exact kept.start h served
  | checking => exact kept.check h served
  | waiting =>
      cases choice with
      | none => exact kept.of_eq rfl rfl rfl
      | some c => exact kept.choose h served c
  | leaving exit => exact kept.leave h served exit
  | unregistering =>
      subst served
      have logged : R h (h.log .debug "WebSocket connection closed"
        [("session_id", .session p.key)]) := kept.of_eq rfl rfl rfl
      exact kept.trans logged (kept.edit (f := Session.dropQueue) _ fun _ => rfl)
  | done => exact kept.of_eq rfl rfl rfl

end KeptByPump
end Connection
end Gateway
