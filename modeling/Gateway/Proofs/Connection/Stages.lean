import Gateway.Connection.Pump
import Gateway.Proofs.Hub.Acts

/-!
What a pump does between its calls. From stage to stage it either says nothing to its endpoint or
calls it once; the reports that follow are decided by the callback and by how it went.
-/
namespace Gateway

def Session.Callback.isData : Session.Callback → Bool
  | .text _ | .binary _ => true
  | _ => false

def Session.Error.isPanic : Session.Error → Bool
  | .endpointPanicked _ => true
  | _ => false

theorem Session.Assembler.error_isPanic {a b : Session.Assembler} {payload : List UInt8}
    {final : Bool} {e : Session.Error} (refused : a.onFrame payload final = (b, .error e)) :
    e.isPanic = false := by
  rw [onFrame] at refused
  split at refused
  · obtain ⟨-, same⟩ := Prod.mk.inj refused
    cases same
    rfl
  · obtain ⟨-, same⟩ := Prod.mk.inj refused
    cases same
    rfl
  · split at refused
    · split at refused
      · obtain ⟨-, same⟩ := Prod.mk.inj refused
        cases same
        rfl
      · exact absurd (Prod.mk.inj refused).2 (by simp)
    · exact absurd (Prod.mk.inj refused).2 (by simp)

namespace Connection.Pump

open Session (Callback PanicPayload)
open Hub (Aside Hears aside_of_eq aside_refl aside_modify)

def reports (key : SessionKey) (o : Option PanicPayload) : List Call :=
  o.toList.map fun payload => .report key (.endpointPanicked payload.message)

/-- What a pump without calls can do in one step. -/
inductive Goes (h : Hub) (p : Pump) : Hub × Pump → Prop
  | speaks {k : Hub} {q : Pump} {c : Callback} {o : Option PanicPayload} :
      p.stage = .starting ∧ c = .opened ∨ p.stage = .waiting ∧ c.isData = true →
      Hears p.key c o h k → q.key = p.key → q.calls = reports p.key o →
      q.stage = (if o = none then .checking else .leaving .endpointFailure) → Goes h p (k, q)
  | fails {k : Hub} {q : Pump} {e : Session.Error} {o : Option PanicPayload} {exit : Exit} :
      p.stage = .checking ∨ p.stage = .waiting → e.isPanic = false →
      Hears p.key (.failed e) o h k → q.key = p.key →
      q.calls = reports p.key o ++ [.report p.key e] → q.stage = .leaving exit → Goes h p (k, q)
  | leaves {k : Hub} {q : Pump} {exit : Exit} {o : Option PanicPayload} :
      p.stage = .leaving exit → Hears p.key .closed o h k → q.key = p.key →
      q.calls = reports p.key o → q.stage = .unregistering → Goes h p (k, q)
  | unregisters {k : Hub} {q : Pump} : p.stage = .unregistering → Aside h k → q.key = p.key →
      q.calls = [.closeSession p.key] → q.stage = .done → Goes h p (k, q)
  | waits {k : Hub} {q : Pump} : p.stage = .checking ∨ p.stage = .waiting → Aside h k →
      q.key = p.key → q.calls = [] →
      q.stage = .checking ∨ q.stage = .waiting ∨ (∃ exit, q.stage = .leaving exit) →
      Goes h p (k, q)
  | rests : p.stage = .done → Goes h p (h, p)
  | turnsAway {k : Hub} {q : Pump} : p.stage = .starting →
      (∀ s, h.session? p.key = some s → s.holder ≠ .session) → Aside h k → q.key = p.key →
      Goes h p (k, q)

variable {h k : Hub} {p q : Pump}

theorem callEndpoint_hears (h : Hub) (p : Pump) (c : Callback) : ∃ o,
    Hears p.key c o h (p.callEndpoint h c).1
      ∧ (p.callEndpoint h c).2.1 = { p with calls := p.calls ++ reports p.key o }
      ∧ (p.callEndpoint h c).2.2 = o.isNone := by
  have hears := Hub.callback_hears h p.key c
  refine ⟨(h.callback p.key c).2, ?_⟩
  rw [callEndpoint]
  generalize h.callback p.key c = result at hears ⊢
  obtain ⟨k, o⟩ := result
  cases o with
  | none => exact ⟨hears, by simp [reports], rfl⟩
  | some payload => exact ⟨hears.before (aside_of_eq rfl rfl), rfl, rfl⟩

theorem deliver_goes {c : Callback} (aside : Aside h k) (key : q.key = p.key)
    (idle : q.calls = [])
    (turn : p.stage = .starting ∧ c = .opened ∨ p.stage = .waiting ∧ c.isData = true) :
    Goes h p (q.deliver k c) := by
  obtain ⟨o, hears, calls, went⟩ := callEndpoint_hears k q c
  rw [deliver]
  generalize q.callEndpoint k c = result at hears calls went ⊢
  obtain ⟨l, q', fine⟩ := result
  dsimp only at calls went
  subst calls went
  rw [idle, key] at *
  cases o with
  | none => exact .speaks turn (hears.after aside) key rfl rfl
  | some payload => exact .speaks turn (hears.after aside) key rfl rfl

theorem fail_goes {e : Session.Error} {exit : Exit} (aside : Aside h k) (key : q.key = p.key)
    (idle : q.calls = []) (turn : p.stage = .checking ∨ p.stage = .waiting)
    (other : e.isPanic = false) : Goes h p (q.fail k e exit) := by
  have logged (fields : List (String × Log.Value)) :
      Aside k (k.log .debug "Session error" fields) := aside_of_eq rfl rfl
  obtain ⟨o, hears, calls, -⟩ := callEndpoint_hears (k.log .debug "Session error"
    [("error", .text e.message), ("session_id", .session q.key)]) q (.failed e)
  rw [fail]
  dsimp only
  generalize q.callEndpoint _ (.failed e) = result at hears calls ⊢
  obtain ⟨l, q', fine⟩ := result
  dsimp only at calls
  subst calls
  rw [key] at hears
  refine .fails turn other (hears.after (aside.trans (logged _))) key ?_ rfl
  rw [idle, key]
  rfl

theorem start_goes (starting : p.stage = .starting) (idle : p.calls = []) :
    Goes h p (p.start h) := by
  rw [start]
  cases found : h.session? p.key with
  | none =>
      refine .turnsAway starting ?_ (aside_refl h) rfl
      intro s there
      exact absurd (found.symm.trans there) (by simp)
  | some s =>
      dsimp only
      have takes : s.takeQueue.2 = true ↔ s.holder = .session := by
        rw [Session.takeQueue]
        cases s.holder with
        | session | writer | nobody => simp
      by_cases taken : s.takeQueue.2 = true
      · rw [if_pos taken]
        have hands_over : Aside h (h.modify p.key fun s => s.takeQueue.1) := by
          refine aside_modify h p.key ?_ ?_ ?_
          all_goals
            intro s
            rw [Session.takeQueue]
            cases s.holder with
            | session | writer | nobody => rfl
        exact deliver_goes (hands_over.trans (aside_of_eq rfl rfl)) rfl idle (.inl ⟨starting, rfl⟩)
      · rw [if_neg taken]
        refine .turnsAway starting ?_ (aside_of_eq rfl rfl) rfl
        intro t there holder
        rw [← Option.some.inj (found.symm.trans there)] at holder
        exact taken (takes.mpr holder)

theorem check_goes (checking : p.stage = .checking) (idle : p.calls = []) :
    Goes h p (p.check h) := by
  rw [check]
  cases h.session? p.key with
  | none => exact .waits (.inl checking) (aside_refl h) rfl idle (.inr (.inr ⟨_, rfl⟩))
  | some s =>
      dsimp only
      split
      · exact .waits (.inl checking) (aside_refl h) rfl idle (.inr (.inr ⟨_, rfl⟩))
      · split
        · exact .waits (.inl checking) (aside_refl h) rfl idle (.inr (.inl rfl))
        · split
          · exact .waits (.inl checking) (aside_refl h) rfl idle (.inr (.inl rfl))
          · exact fail_goes (aside_refl h) rfl idle (.inl checking) rfl

theorem takeInbound_goes (waiting : p.stage = .waiting) (idle : p.calls = [])
    (config : Config.SessionConfig) (i : Inbound) : Goes h p (p.takeInbound h config i) := by
  cases i with
  | text s =>
      rw [takeInbound]
      split
      · exact deliver_goes (aside_refl h) rfl idle (.inr ⟨waiting, rfl⟩)
      · exact .waits (.inr waiting) (aside_refl h) rfl idle (.inl rfl)
      · rename_i refused
        refine fail_goes ?_ rfl idle (.inr waiting) (Session.Assembler.error_isPanic refused)
        split
        · exact aside_of_eq rfl rfl
        · exact aside_refl h
  | binary bytes =>
      rw [takeInbound]
      split
      · exact fail_goes (aside_refl h) rfl idle (.inr waiting) rfl
      · exact deliver_goes (aside_refl h) rfl idle (.inr ⟨waiting, rfl⟩)
  | ping payload => exact .waits (.inr waiting) (aside_refl h) rfl idle (.inl rfl)
  | pong => exact .waits (.inr waiting) (aside_refl h) rfl idle (.inl rfl)
  | close =>
      exact .waits (.inr waiting) (aside_of_eq rfl rfl) rfl idle (.inr (.inr ⟨_, rfl⟩))
  | failed => exact fail_goes (aside_refl h) rfl idle (.inr waiting) rfl
  | ended => exact .waits (.inr waiting) (aside_refl h) rfl idle (.inr (.inr ⟨_, rfl⟩))
  | idle => exact fail_goes (aside_refl h) rfl idle (.inr waiting) rfl

theorem takeOutbound_goes (waiting : p.stage = .waiting) (idle : p.calls = []) (s : Session) :
    Goes h p (p.takeOutbound h s) := by
  rw [takeOutbound]
  split
  · exact .waits (.inr waiting) (aside_refl h) rfl idle (.inr (.inl waiting))
  · have received : Aside h (h.modify p.key fun s => s.receive.1) := by
      refine aside_modify h p.key ?_ ?_ ?_
      all_goals
        intro s
        rw [Session.receive]
        cases s.queue with
        | nil | cons => rfl
    dsimp only
    split
    · exact .waits (.inr waiting) received rfl idle (.inl rfl)
    · exact fail_goes received rfl idle (.inr waiting) rfl

theorem choose_goes (waiting : p.stage = .waiting) (idle : p.calls = []) (choice : Choice) :
    Goes h p (p.choose h choice) := by
  rw [choose]
  cases h.session? p.key with
  | none => exact .waits (.inr waiting) (aside_refl h) rfl idle (.inr (.inr ⟨_, rfl⟩))
  | some s =>
      cases choice with
      | inbound i => exact takeInbound_goes waiting idle s.config i
      | outbound => exact takeOutbound_goes waiting idle s
      | closeSignal =>
          dsimp only
          split
          · exact .waits (.inr waiting) (aside_refl h) rfl idle (.inl rfl)
          · exact .waits (.inr waiting) (aside_refl h) rfl idle (.inr (.inl waiting))

theorem leave_goes {exit : Exit} (leaving : p.stage = .leaving exit) (idle : p.calls = []) :
    Goes h p (p.leave h exit) := by
  -- The last words change neither key nor calls.
  have farewell {k : Hub} {q : Pump} (aside : Aside h k) (key : q.key = p.key)
      (still : q.calls = []) : Goes h p
        ((q.callEndpoint k .closed).1,
          { (q.callEndpoint k .closed).2.1 with stage := .unregistering }) := by
    obtain ⟨o, hears, calls, -⟩ := callEndpoint_hears k q .closed
    rw [key] at hears
    rw [calls]
    refine .leaves leaving (hears.after aside) key ?_ rfl
    rw [still, key]
    rfl
  cases exit with
  | peer => exact farewell (aside_refl h) rfl idle
  | close code reason =>
      have keeps : (p.writeClose code reason).key = p.key
          ∧ (p.writeClose code reason).calls = p.calls := by
        rw [writeClose]
        dsimp only
        split
        · exact ⟨rfl, rfl⟩
        · exact ⟨rfl, rfl⟩
      rw [leave]
      by_cases up : p.writable = true
      · rw [if_pos up]
        exact farewell (aside_refl h) keeps.1 (keeps.2.trans idle)
      · rw [if_neg up]
        exact farewell (aside_of_eq rfl rfl) rfl idle

theorem step_goes (idle : p.calls = []) (choice : Option Choice) : Goes h p (p.step h choice) := by
  unfold step
  rw [idle]
  cases stage : p.stage with
  | starting => exact start_goes stage idle
  | checking => exact check_goes stage idle
  | waiting =>
      cases choice with
      | none => exact .waits (.inr stage) (aside_refl h) rfl idle (.inr (.inl stage))
      | some choice => exact choose_goes stage idle choice
  | leaving exit => exact leave_goes stage idle
  | unregistering =>
      let logged := h.log .debug "WebSocket connection closed" [("session_id", .session p.key)]
      have closes : Aside h logged := aside_of_eq rfl rfl
      have drops : Aside logged (logged.modify p.key Session.dropQueue) :=
        aside_modify logged p.key (fun _ => rfl) (fun _ => rfl) fun _ => rfl
      exact .unregisters stage (closes.trans drops) rfl rfl rfl
  | done => exact .rests stage

end Connection.Pump
end Gateway
