import Gateway.Proofs.Connection.Traffic
import Gateway.Proofs.Connection.Stopping
import Gateway.Proofs.Connection.Edits

/-!
A connection passes its messages on in their order, among everything else that goes on:
`messages_pass_in_order`.
-/
namespace Gateway.Connection

open Session (Message)

/-- Other pumps leave a session alone, or come for it and find that it is served. -/
def Deed.keepsOff (key : SessionKey) : Deed → Bool
  | .serve p _ => p.key != key || p.stage == .starting
  | _ => true

namespace Serving

variable {key : SessionKey} {start : Serving} {turns : List Turn} {turn : Turn} {exit : Exit}
  {farewell : List Outgoing} {t₀ t t' : Session} {accepted ms : List Message}
  {choice : Option Pump.Choice}

/-! ### Everything else -/

/-- A turn in which the pump stays where it is, and neither takes nor writes anything. -/
structure Idle (s : Serving) (turn : Turn) : Prop where
  key : (s.turn turn).pump.key = s.pump.key
  assembler : (s.turn turn).pump.assembler = s.pump.assembler
  written : (s.turn turn).pump.written = s.pump.written
  stage : (s.turn turn).pump.stage = s.pump.stage
  takes : s.takes turn = []
  queueEdit : ∀ t, s.queueEdit turn t = t

theorem Flow.aside (flow : Flow t₀ start turns t accepted farewell)
    (idle : (start.run turns).Idle turn) (fed : t.Feeds t') (gains : t.Gains ms t') :
    Flow t₀ start (turns ++ [turn]) t' (accepted ++ ms) farewell := by
  have written : (start.run (turns ++ [turn])).pump.written
      = (start.run turns).pump.written ++ [] := by
    rw [run_concat, idle.written, List.append_nil]
  have stage : (start.run (turns ++ [turn])).pump.stage = (start.run turns).pump.stage := by
    rw [run_concat, idle.stage]
  have passed := flow.passed.step ms [] fed written rfl idle.takes rfl
  rw [List.append_nil] at passed
  refine ⟨passed, ?_, ?_⟩
  · rw [stage]
    exact flow.parting.later turn
  · rw [stage]
    intro talking
    refine (flow.talks talking).step [] fed gains written ?_ ?_ rfl ?_
    · rw [idle.takes, List.append_nil]
    · rw [idle.takes]
      exact fun m among => absurd among List.not_mem_nil
    · exact fun o among => absurd among List.not_mem_nil

theorem Traffic.aside (traffic : Traffic key t₀ start turns t accepted farewell)
    (idle : (start.run turns).Idle turn)
    (now : ((start.run turns).turn turn).hub.session? key = some t') (fed : t.Feeds t') :
    ∃ ms, Traffic key t₀ start (turns ++ [turn]) t' (accepted ++ ms) farewell := by
  obtain ⟨⟨serves, fresh, found, config, held⟩, accepted_so_far, flow⟩ := traffic
  obtain ⟨ms, accepts⟩ := fed.accepts
  have queued : ((start.run turns).queueEdit turn t).Accepts ms t' := by
    rw [idle.queueEdit]
    exact accepts
  refine ⟨ms, ?_, accepted_so_far.concat found now queued, flow.aside idle fed accepts.gains⟩
  rw [run_concat]
  refine ⟨idle.key.trans serves, idle.assembler.trans fresh, now,
    accepts.gains.config.trans config, ?_⟩
  rw [accepts.gains.holder, idle.stage]
  exact held

theorem idle_elsewhere (s : Serving) (d : Deed) : s.Idle (.elsewhere d) :=
  ⟨rfl, rfl, rfl, rfl, rfl, fun _ => rfl⟩

theorem idle_wire (s : Serving) (up : Bool) : s.Idle (.wire up) :=
  ⟨rfl, rfl, rfl, rfl, rfl, fun _ => rfl⟩

theorem turn_call {s : Serving} {c : Call} {rest : List Call} (calls : s.pump.calls = c :: rest)
    (choice : Option Pump.Choice) : s.turn (.own choice)
      = ⟨(c.step s.hub).1, { s.pump with calls := (c.step s.hub).2 ++ rest },
        s.past ++ [(s.hub, c)]⟩ := by
  rw [turn]
  unfold Pump.step
  rw [calls]
  rfl

theorem idle_call {s : Serving} {c : Call} {rest : List Call} (calls : s.pump.calls = c :: rest)
    (choice : Option Pump.Choice) : s.Idle (.own choice) := by
  have busy : s.pump.calls ≠ [] := by simp [calls]
  have turned := turn_call calls choice
  refine ⟨by rw [turned], by rw [turned], by rw [turned], by rw [turned],
    if_neg fun both => busy both.1, fun t => ?_⟩
  rw [queueEdit, if_neg busy]
  rfl

/-- To a session that is served, nobody else does more than to give it messages. -/
theorem feeds_deed {h : Hub} {d : Deed} (off : d.keepsOff key = true)
    (found : h.session? key = some t) (held : t.holder ≠ .session) :
    ∃ t', (d.result h).session? key = some t' ∧ t.Feeds t' := by
  cases d with
  | call c => exact Hub.feeds_step h c key t found held
  | send other m => exact Hub.feeds_send h other m key t found held
  | requestClose other => exact Hub.feeds_requestClose h other key t found held
  | make matched config subprotocol endpoint =>
      exact Hub.feeds_create h matched config subprotocol endpoint key t found held
  | enlist | dismiss | wait => exact Hub.feeds_of_sessions rfl key t found held
  | serve p choice =>
      rw [Deed.result]
      cases calls : p.calls with
      | cons c rest =>
          have steps : (p.step h choice).1 = (c.step h).1 := by
            unfold Pump.step
            rw [calls]
          rw [steps]
          exact Hub.feeds_step h c key t found held
      | nil =>
          by_cases same : p.key = key
          · subst same
            have starting : p.stage = .starting := by simpa [Deed.keepsOff] using off
            rw [Pump.step_of_starting calls starting, Pump.start_of_served found held]
            exact Hub.feeds_of_sessions rfl p.key t found held
          · obtain ⟨g, fed⟩ := Pump.step_edits calls h choice
            refine fed key t ?_ held
            rw [Hub.session?_modify, if_neg same]
            exact found

/-! ### Runs -/

theorem Traffic.step (traffic : Traffic key t₀ start turns t accepted farewell)
    (started : (start.run turns).pump.stage ≠ .starting)
    (off : ∀ d, turn = .elsewhere d → d.keepsOff key = true) :
    ∃ t' ms farewell', Traffic key t₀ start (turns ++ [turn]) t' (accepted ++ ms) farewell'
      ∧ (start.run (turns ++ [turn])).pump.stage ≠ .starting := by
  have found := traffic.attends.found
  have held : t.holder ≠ .session := fun holder => started (traffic.attends.held.mp holder)
  have aside (idle : (start.run turns).Idle turn)
      (fed : ∃ t', ((start.run turns).turn turn).hub.session? key = some t' ∧ t.Feeds t') :
      ∃ t' ms farewell', Traffic key t₀ start (turns ++ [turn]) t' (accepted ++ ms) farewell'
        ∧ (start.run (turns ++ [turn])).pump.stage ≠ .starting := by
    obtain ⟨t', now, fed⟩ := fed
    obtain ⟨ms, traffic'⟩ := traffic.aside idle now fed
    refine ⟨t', ms, farewell, traffic', ?_⟩
    rw [run_concat, idle.stage]
    exact started
  cases turn with
  | own choice =>
      cases calls : (start.run turns).pump.calls with
      | nil => exact traffic.own calls choice
      | cons c rest =>
          refine aside (idle_call calls choice) ?_
          rw [turn_call calls]
          exact Hub.feeds_step _ c key t found held
  | elsewhere d => exact aside (idle_elsewhere _ d) (feeds_deed (off d rfl) found held)
  | wire up => exact aside (idle_wire _ up) ⟨t, found, t.feeds_refl⟩

theorem Traffic.run {more : List Turn} (traffic : Traffic key t₀ start turns t accepted farewell)
    (started : (start.run turns).pump.stage ≠ .starting)
    (off : ∀ d, .elsewhere d ∈ more → d.keepsOff key = true) :
    ∃ t' accepted' farewell', Traffic key t₀ start (turns ++ more) t' accepted' farewell' := by
  induction more generalizing turns t accepted farewell with
  | nil =>
      refine ⟨t, accepted, farewell, ?_⟩
      rw [List.append_nil]
      exact traffic
  | cons first rest ih =>
      have off' : ∀ d, first = .elsewhere d → d.keepsOff key = true := by
        rintro d rfl
        exact off d List.mem_cons_self
      obtain ⟨t', ms, farewell', traffic', started'⟩ := traffic.step started off'
      obtain ⟨t'', accepted', farewell'', traffic''⟩ :=
        ih traffic' started' fun d among => off d (List.mem_cons_of_mem first among)
      refine ⟨t'', accepted', farewell'', ?_⟩
      rwa [List.append_assoc] at traffic''

theorem traffic_new {h : Hub} (found : h.session? key = some t) (unserved : t.holder = .session) :
    Traffic key t ⟨h, .new key t.config, []⟩ [] t [] [] := by
  have talks : Talks t ⟨h, .new key t.config, []⟩ [] t [] :=
    ⟨(List.append_nil _).symm, fun m among => absurd among List.not_mem_nil, List.append_nil _,
      fun o among => absurd among List.not_mem_nil⟩
  exact ⟨⟨rfl, rfl, found, rfl, iff_of_true unserved rfl⟩, .nil, talks.flow (.inl rfl)⟩

theorem Traffic.heeds (traffic : Traffic key t₀ start turns t accepted farewell)
    (calls : (start.run turns).pump.calls = []) (ends : (start.run turns).pump.Ends t choice exit) :
    (start.run (turns ++ [.own choice])).pump.stage = .leaving exit := by
  obtain ⟨serves, fresh, found, config, -⟩ := traffic.attends
  have there : (start.run turns).hub.session? (start.run turns).pump.key = some t := by
    rw [serves, found]
  have fresh' : (start.run turns).pump.assembler = .new t.config.maxTextMessageSize := by
    rw [fresh, config]
  rw [run_concat, turn_own_idle calls]
  exact Pump.step_of_ends there calls fresh' ends

theorem turn_of_done {s : Serving} (done : s.pump.stage = .done) (turn : Turn) :
    (s.turn turn).pump.stage = .done ∧ (s.turn turn).pump.written = s.pump.written
      ∧ s.takes turn = [] := by
  cases turn with
  | elsewhere | wire => exact ⟨done, rfl, rfl⟩
  | own choice =>
      have takes := takes_of_other s (by simp [done]) choice
      cases calls : s.pump.calls with
      | cons c rest =>
          rw [turn_call calls]
          exact ⟨done, rfl, takes⟩
      | nil =>
          rw [turn_own_idle calls]
          unfold Pump.step
          rw [calls, done]
          exact ⟨done, rfl, takes⟩

theorem run_of_done {s : Serving} (done : s.pump.stage = .done) (turns : List Turn) :
    s.taken turns = [] ∧ (s.run turns).pump.written = s.pump.written := by
  induction turns generalizing s with
  | nil => exact ⟨rfl, rfl⟩
  | cons turn rest ih =>
      obtain ⟨still, written, takes⟩ := turn_of_done done turn
      obtain ⟨taken, written'⟩ := ih still
      exact ⟨by rw [Serving.taken, takes, taken]; rfl, written'.trans written⟩

/-- Wherever there is a reason to stop, the pump stops for it. -/
def Heeds (key : SessionKey) (start : Serving) (turns : List Turn) : Prop :=
  ∀ before choice after t exit, turns = before ++ .own choice :: after →
    (start.run before).pump.calls = [] → (start.run before).hub.session? key = some t →
    (start.run before).pump.Ends t choice exit →
    (start.run (before ++ [.own choice])).pump.stage = .leaving exit

/-- However a connection goes, among whatever else happens. If its pump gets the queue, the endpoint
has been handed what has come in, in order, unchanged and within the ceilings, but for a last
message above its ceiling. What has been written is a beginning of what was queued and what the
session has accepted since, in order, and behind it the farewell. The farewell is a close frame if
the pump has stopped on its own account and writes reach the peer, with the code for the reason;
only an answer that the protocol still owes to a ping can stand behind it. A pump that does not get
the queue takes nothing and writes nothing. -/
theorem messages_pass_in_order {h : Hub} (found : h.session? key = some t)
    (choice : Option Pump.Choice) (turns : List Turn)
    (off : ∀ d, .elsewhere d ∈ turns → d.keepsOff key = true) :
    let start : Serving := ⟨h, .new key t.config, []⟩
    let all := .own choice :: turns
    (t.holder = .session → start.Heeds key all ∧ ∃ t' accepted farewell,
      (start.run all).hub.session? key = some t' ∧ start.Accepts key all accepted
        ∧ Flow t start all t' accepted farewell)
      ∧ (t.holder ≠ .session → start.taken all = [] ∧ (start.run all).pump.written = []) := by
  intro start all
  refine ⟨fun unserved => ?_, fun served => ?_⟩
  · have new : Traffic key t start [] t [] [] := traffic_new found unserved
    obtain ⟨t₁, ms, farewell, first, started⟩ := new.own rfl choice
    have later {more : List Turn} (off : ∀ d, .elsewhere d ∈ more → d.keepsOff key = true) :
        ∃ t' accepted farewell, Traffic key t start (.own choice :: more) t' accepted farewell :=
      first.run started off
    refine ⟨?_, ?_⟩
    · intro before choice' after t' exit split calls now ends
      obtain ⟨u, accepted, farewell, traffic⟩ :
          ∃ u accepted farewell, Traffic key t start before u accepted farewell := by
        cases before with
        | nil => exact ⟨_, _, _, new⟩
        | cons turn more =>
            obtain ⟨rfl, rfl⟩ := List.cons.inj split
            exact later fun d among => off d (List.mem_append_left _ among)
      obtain rfl := Option.some.inj (traffic.attends.found.symm.trans now)
      exact traffic.heeds calls ends
    · obtain ⟨t', accepted, farewell, traffic⟩ := later off
      exact ⟨t', accepted, farewell, traffic.attends.found, traffic.accepts, traffic.flow⟩
  · have turned : start.turn (.own choice) = ⟨h.log .warn "Session is already being served"
        [("session_id", .session key)],
        { start.pump with calls := [.closeSession key], stage := .done }, []⟩ := by
      rw [turn_own_idle rfl]
      have starts := Pump.start_of_served (p := start.pump) found served
      exact congrArg (fun result : Hub × Pump => Serving.mk result.1 result.2 []) starts
    have done : (start.turn (.own choice)).pump.stage = .done := by rw [turned]
    obtain ⟨taken, written⟩ := run_of_done done turns
    refine ⟨taken, written.trans ?_⟩
    rw [turned]
    rfl

def withEcho : Hub where
  sessions := [{ id := .made 0, matched := { spec := .default, path := [], covered := [] },
                 config := { maxTextMessageSize := 5 }, subprotocol := none,
                 endpoint := .echo, phase := .opened, queue := [.text "early"] }]
  registry := { live := [0] }

/-- One text comes back. The next one is too long, and what is queued then stays where it is. -/
def echoTurns : List Turn :=
  [.own none, .own (some .outbound), .own none, .own (some (.inbound (.text "hi"))),
    .elsewhere (.send 0 (.text "late")), .own none, .own (some .outbound), .own none,
    .own (some (.inbound (.text "longer")))] ++ List.replicate 20 (.own none)

theorem messages_pass_up_to_the_ceiling :
    let start := Serving.mk withEcho (.new 0 { maxTextMessageSize := 5 }) []
    let all := .own none :: echoTurns
    (∀ d, .elsewhere d ∈ echoTurns → d.keepsOff 0 = true)
      ∧ start.taken all = [.text "hi", .text "longer"]
      ∧ (start.run all).pump.written
        = [.message (.text "early"), .message (.text "hi"), .close 1009 "invalid text message"]
      ∧ (start.run all).pump.hasEnded = true ∧ start.Heeds 0 all
      ∧ ∃ t t' accepted farewell, withEcho.session? 0 = some t ∧ t.holder = .session
        ∧ (start.run all).hub.session? 0 = some t' ∧ t'.handed = [.text "hi"]
        ∧ start.Accepts 0 all accepted ∧ Flow t start all t' accepted farewell := by
  intro start all
  have off : ∀ d, .elsewhere d ∈ echoTurns → d.keepsOff 0 = true := by
    intro d among
    obtain rfl : d = _ := by simpa [echoTurns] using among
    rfl
  have found : withEcho.session? 0 = some _ := rfl
  obtain ⟨heeds, t', accepted, farewell, now, accepts, flow⟩ :=
    (messages_pass_in_order found none echoTurns off).1 rfl
  have handed : ((start.run all).hub.session? 0).map Session.handed = some [.text "hi"] := by
    decide +kernel
  rw [now] at handed
  exact ⟨off, by decide +kernel, by decide +kernel, by decide +kernel, heeds, _, t', accepted,
    farewell, found, rfl, now, Option.some.inj handed, accepts, flow⟩

end Serving
end Gateway.Connection
