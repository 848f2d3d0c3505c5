import Gateway.Proofs.Connection.Moves

/-!
Where there is a reason to stop, a pump stops for it: `step_of_ends`.
-/
namespace Gateway.Connection.Pump

open Session (Callback PanicPayload)

variable {h : Hub} {t : Session} {p : Pump} {choice : Option Choice}

theorem stage_fail (h : Hub) (p : Pump) (e : Session.Error) (exit : Exit) :
    (p.fail h e exit).2.stage = .leaving exit := by
  obtain ⟨calls, now⟩ := fail_eq h p e exit
  rw [now]

theorem stage_deliver {c : Callback} {payload : PanicPayload} (found : h.session? p.key = some t)
    (panics : t.endpoint.panic? t.heard c = some payload) :
    (p.deliver h c).2.stage = .leaving (.close 1011 "endpoint failure") := by
  rw [deliver_eq found, panics]
  rfl

theorem step_of_starting (idle : p.calls = []) (starting : p.stage = .starting) :
    p.step h choice = p.start h := by
  unfold step
  rw [idle, starting]

theorem step_of_checking (idle : p.calls = []) (checking : p.stage = .checking) :
    p.step h choice = p.check h := by
  unfold step
  rw [idle, checking]

theorem step_of_inbound {i : Inbound} (found : h.session? p.key = some t) (idle : p.calls = [])
    (waiting : p.stage = .waiting) :
    p.step h (some (.inbound i)) = p.takeInbound h t.config i := by
  unfold step
  rw [idle, waiting]
  dsimp only
  rw [choose, found]

theorem step_of_outbound (found : h.session? p.key = some t) (idle : p.calls = [])
    (waiting : p.stage = .waiting) : p.step h (some .outbound) = p.takeOutbound h t := by
  unfold step
  rw [idle, waiting]
  dsimp only
  rw [choose, found]

theorem stage_takeOutbound (queued : t.queue ≠ []) (down : p.writable = false) :
    (p.takeOutbound h t).2.stage = .leaving .peer := by
  rw [takeOutbound]
  cases queue : t.queue with
  | nil => exact absurd queue queued
  | cons m rest =>
      rw [Session.receive_of_queue queue]
      dsimp only
      rw [if_neg (by simp [down])]
      exact stage_fail _ p _ _

theorem stage_check (found : h.session? p.key = some t) (unasked : t.closeRequested = false)
    (opened : t.phase = .opened) (owes : p.owed ≠ none) (down : p.writable = false) :
    (p.check h).2.stage = .leaving .peer := by
  rw [check, found]
  dsimp only
  rw [if_neg (by simp [unasked, opened])]
  cases owed : p.owed with
  | none => exact absurd owed owes
  | some payload =>
      dsimp only
      rw [if_neg (by simp [down])]
      exact stage_fail h _ _ _

/-- Where there is a reason to stop, a pump stops. -/
theorem step_of_ends {exit : Exit} (found : h.session? p.key = some t) (idle : p.calls = [])
    (fresh : p.assembler = .new t.config.maxTextMessageSize) (ends : Ends t p choice exit) :
    (p.step h choice).2.stage = .leaving exit := by
  cases ends with
  | unopened starting holder panics =>
      obtain ⟨k, -, there, starts⟩ := start_of_unserved found holder
      rw [step_of_starting idle starting, starts]
      exact stage_deliver there panics
  | unwanted checking unwanted =>
      rw [step_of_checking idle checking, check, found]
      dsimp only
      rw [if_pos (by simpa using unwanted)]
      rfl
  | silent waiting =>
      rw [step_of_inbound found idle waiting]
      exact stage_fail h p _ _
  | refused waiting comes large =>
      rw [eq_inbound comes, step_of_inbound found idle waiting, takeInbound_ofMessage h fresh,
        if_pos large]
      exact stage_fail h p _ _
  | panicked waiting comes within panics =>
      rw [eq_inbound comes, step_of_inbound found idle waiting, takeInbound_ofMessage h fresh,
        if_neg (Nat.not_lt.mpr within)]
      exact stage_deliver found panics
  | peerGone waiting gone =>
      rw [step_of_inbound found idle waiting]
      rcases gone with ⟨said, rfl⟩ | rfl | rfl
      · rfl
      · rfl
      · exact stage_fail h p _ _
  | unheard waiting queued down =>
      rw [step_of_outbound found idle waiting]
      exact stage_takeOutbound queued down
  | unanswered checking unasked opened owes down =>
      rw [step_of_checking idle checking]
      exact stage_check found unasked opened owes down

end Gateway.Connection.Pump
