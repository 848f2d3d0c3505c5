import Gateway.Proofs.Connection.Passing

/-!
The end of a connection that stops over an error. Left to itself its pump comes to an end, and
among whatever else happens, at the end the endpoint has been told of that error alone, the
listeners have been told too, and the last that the pump has written is its farewell:
`Sound.ends_over`.
-/
namespace Gateway

namespace Session

variable {os : List Outcome}

theorem Endpoint.outcomes_fst (e : Endpoint) (heard made : List Callback) :
    (e.outcomes heard made).map Prod.fst = made := by
  induction made generalizing heard with
  | nil => rfl
  | cons c rest ih => rw [outcomes, List.map_cons, ih]

/-- In its whole course an endpoint is told of one error at most. -/
theorem Course.error_once (course : Course os) :
    (os.map Prod.fst).filterMap Callback.error? = []
      ∨ ∃ e, (os.map Prod.fst).filterMap Callback.error? = [e] := by
  obtain ⟨leaving, last⟩ := course
  cases leaving with
  | @intro first data errs messages once _ _ =>
      have silent : (data.map Prod.fst).filterMap Callback.error? = [] := by
        refine List.filterMap_eq_nil_iff.mpr fun c among => ?_
        obtain ⟨o, inside, rfl⟩ := List.mem_map.mp among
        have message := messages o inside
        generalize o.1 = c at message
        cases c with
        | failed e => exact absurd message Bool.false_ne_true
        | opened | text | binary | closed => rfl
      rw [List.map_append, List.map_append, List.map_cons, List.filterMap_append,
        List.filterMap_append, List.filterMap_cons_none rfl, silent]
      rcases once with rfl | ⟨e, p, -, rfl⟩
      · exact .inl rfl
      · exact .inr ⟨e, rfl⟩

theorem Course.told_once {e : Endpoint} {heard made : List Callback} {error : Error}
    (course : Course (e.outcomes heard made)) (told : .failed error ∈ made) :
    made.filterMap Callback.error? = [error] := by
  have among : error ∈ made.filterMap Callback.error? := List.mem_filterMap.mpr ⟨_, told, rfl⟩
  have at_most := course.error_once
  rw [e.outcomes_fst] at at_most
  rcases at_most with never | ⟨other, once⟩
  · rw [never] at among
    exact absurd among List.not_mem_nil
  · rw [once] at among ⊢
    rw [List.mem_singleton.mp among]

end Session

namespace Connection

open Session (Callback Course Outcome)

/-! ### What an endpoint has had -/

variable {h k : Hub} {p q : Pump} {e : Session.Endpoint} {had : List Callback}

theorem Pump.Goes.grows (goes : p.Goes h (k, q)) (now : h.appSide p.key = some (e, had)) :
    ∃ more, k.appSide p.key = some (e, had ++ more) := by
  have still (aside : h.Aside k) : ∃ more, k.appSide p.key = some (e, had ++ more) :=
    ⟨[], by rw [aside.appSide, now, List.append_nil]⟩
  cases goes with
  | speaks _ hears | fails _ _ hears | leaves _ hears => exact ⟨_, (hears.here e had now).1⟩
  | unregisters _ aside | waits _ aside | turnsAway _ _ aside => exact still aside
  | rests => exact still (Hub.aside_refl h)

theorem Pump.appSide_fail (now : h.appSide p.key = some (e, had)) (error : Session.Error)
    (exit : Exit) :
    (p.fail h error exit).1.appSide p.key = some (e, had ++ [.failed error]) := by
  obtain ⟨o, hears, -, -⟩ := callEndpoint_hears (h.log .debug "Session error"
    [("error", .text error.message), ("session_id", .session p.key)]) p (.failed error)
  exact (hears.here e had now).1

theorem Pump.leave_says (h : Hub) (p : Pump) (exit : Exit) :
    (p.leave h exit).2.stage = .unregistering
      ∧ (p.leave h exit).2.written = p.written ++ p.farewell exit := by
  have last {k : Hub} {r : Pump} {out : List Outgoing} (written : r.written = p.written ++ out) :
      (r.callEndpoint k .closed).2.1.written = p.written ++ out := by
    obtain ⟨o, -, calls, -⟩ := callEndpoint_hears k r .closed
    rw [calls]
    exact written
  cases exit with
  | peer => exact ⟨rfl, last (List.append_nil _).symm⟩
  | close code reason =>
      rw [leave, farewell]
      by_cases up : p.writable = true
      · rw [if_pos up, if_pos up]
        exact ⟨rfl, last (p.writeClose_keeps code reason).2.2⟩
      · rw [if_neg up, if_neg up]
        exact ⟨rfl, last (List.append_nil _).symm⟩

namespace Serving

variable {key : SessionKey} {heard : List Callback} {s : Serving} {t : Turn} {turns : List Turn}

theorem Sound.grows (sound : Sound key e heard s)
    (spares : ∀ d, t = .elsewhere d → d.spares key = true)
    (now : s.hub.appSide key = some (e, had)) :
    ∃ more, (s.turn t).hub.appSide key = some (e, had ++ more) := by
  obtain ⟨made, under, -⟩ := sound
  have still {k : Hub} (spared : Spared key s.hub k) :
      ∃ more, k.appSide key = some (e, had ++ more) :=
    ⟨[], by rw [spared.appSide, now, List.append_nil]⟩
  cases t with
  | wire up => exact ⟨[], by rw [List.append_nil]; exact now⟩
  | elsewhere d =>
      refine still (spared_deed (spares d rfl) under.old fun unmade => ?_)
      rw [Hub.appSide, unmade] at now
      exact absurd now (by simp)
  | own choice =>
      cases calls : s.pump.calls with
      | nil =>
          have goes := s.pump.step_goes (h := s.hub) calls choice
          rw [turn_own_idle calls]
          rw [← under.serves] at now ⊢
          generalize s.pump.step s.hub choice = result at goes ⊢
          obtain ⟨k, q⟩ := result
          exact goes.grows now
      | cons c rest =>
          have known : c ≠ .goLive key := under.known c (by rw [calls]; exact List.mem_cons_self)
          rw [turn_call calls]
          exact still (spared_call under.old known).1

theorem Sound.grows_run (sound : Sound key e heard s)
    (spares : ∀ d, .elsewhere d ∈ turns → d.spares key = true)
    (now : s.hub.appSide key = some (e, had)) :
    ∃ more, (s.run turns).hub.appSide key = some (e, had ++ more) := by
  induction turns generalizing s had with
  | nil => exact ⟨[], by rw [List.append_nil]; exact now⟩
  | cons t rest ih =>
      have first : ∀ d, t = .elsewhere d → d.spares key = true := by
        rintro d rfl
        exact spares d List.mem_cons_self
      obtain ⟨more, next⟩ := sound.grows first now
      obtain ⟨later, last⟩ :=
        ih (sound.turn first) (fun d among => spares d (List.mem_cons_of_mem t among)) next
      exact ⟨more ++ later, by rw [← List.append_assoc]; exact last⟩

/-! ### The pump's last steps -/

theorem run_append (s : Serving) (turns more : List Turn) :
    s.run (turns ++ more) = (s.run turns).run more := by
  induction turns generalizing s with
  | nil => rfl
  | cons t rest ih => exact ih (s.turn t)

variable {exit : Exit} {farewell : List Outgoing} {start : Serving}

theorem turn_leaves (calls : s.pump.calls = []) (leaving : s.pump.stage = .leaving exit)
    (choice : Option Pump.Choice) :
    (s.turn (.own choice)).pump.stage = .unregistering
      ∧ (s.turn (.own choice)).pump.written = s.pump.written ++ s.pump.farewell exit := by
  rw [turn_own_idle calls]
  unfold Pump.step
  rw [calls, leaving]
  exact s.pump.leave_says s.hub exit

theorem turn_gone (calls : s.pump.calls = [])
    (gone : s.pump.stage = .unregistering ∨ s.pump.stage = .done) (choice : Option Pump.Choice) :
    (s.turn (.own choice)).pump.stage = .done
      ∧ (s.turn (.own choice)).pump.written = s.pump.written := by
  rw [turn_own_idle calls]
  unfold Pump.step
  rw [calls]
  rcases gone with unregistering | done
  · rw [unregistering]
    exact ⟨rfl, rfl⟩
  · rw [done]
    exact ⟨done, rfl⟩

def isAside (s : Serving) : Turn → Bool
  | .own _ => !s.pump.calls.isEmpty
  | .elsewhere _ | .wire _ => true

theorem idle_aside (aside : s.isAside t = true) : s.Idle t := by
  cases t with
  | elsewhere d => exact idle_elsewhere s d
  | wire up => exact idle_wire s up
  | own choice =>
      cases calls : s.pump.calls with
      | nil => simp [isAside, calls] at aside
      | cons c rest => exact idle_call calls choice

theorem run_gone (gone : s.pump.stage = .unregistering ∨ s.pump.stage = .done)
    (turns : List Turn) :
    ((s.run turns).pump.stage = .unregistering ∨ (s.run turns).pump.stage = .done)
      ∧ (s.run turns).pump.written = s.pump.written := by
  induction turns generalizing s with
  | nil => exact ⟨gone, rfl⟩
  | cons t rest ih =>
      have next : ((s.turn t).pump.stage = .unregistering ∨ (s.turn t).pump.stage = .done)
          ∧ (s.turn t).pump.written = s.pump.written := by
        by_cases aside : s.isAside t = true
        · have idle := idle_aside aside
          rw [idle.stage, idle.written]
          exact ⟨gone, rfl⟩
        · cases t with
          | elsewhere | wire => exact absurd rfl aside
          | own choice =>
              have calls : s.pump.calls = [] := by simpa [isAside] using aside
              obtain ⟨done, written⟩ := turn_gone calls gone choice
              exact ⟨.inr done, written⟩
      obtain ⟨still, written⟩ := ih next.1
      exact ⟨still, written.trans next.2⟩

theorem Left.earlier (left : Left (s.turn t) turns exit farewell) :
    Left s (t :: turns) exit farewell := by
  cases left with
  | @intro before after choice split calls leaving =>
      have longer : t :: turns = (t :: before) ++ .own choice :: after := congrArg (t :: ·) split
      exact .intro longer calls leaving

/-- Once a pump is to leave for a reason, it is still to, or it has left for that reason and with
its farewell. -/
theorem run_leaving (leaving : s.pump.stage = .leaving exit) (turns : List Turn) :
    (s.run turns).pump.stage = .leaving exit
      ∨ ((s.run turns).pump.stage = .unregistering ∨ (s.run turns).pump.stage = .done)
        ∧ ∃ farewell, Left s turns exit farewell
          ∧ (s.run turns).pump.written = s.pump.written ++ farewell := by
  induction turns generalizing s with
  | nil => exact .inl leaving
  | cons t rest ih =>
      by_cases aside : s.isAside t = true
      · have idle := idle_aside aside
        rcases ih (idle.stage.trans leaving) with still | ⟨gone, farewell, left, written⟩
        · exact .inl still
        · rw [idle.written] at written
          exact .inr ⟨gone, farewell, left.earlier, written⟩
      · cases t with
        | elsewhere | wire => exact absurd rfl aside
        | own choice =>
            have calls : s.pump.calls = [] := by simpa [isAside] using aside
            obtain ⟨next, written⟩ := turn_leaves calls leaving choice
            obtain ⟨gone, same⟩ := run_gone (.inl next) rest
            refine .inr ⟨gone, _, .intro (List.nil_append _).symm calls leaving, ?_⟩
            exact same.trans written

/-! ### Left to itself -/

theorem calls_end (s : Serving) : ∃ n, (s.run (.replicate n (.own none))).pump.calls = []
    ∧ (s.run (.replicate n (.own none))).pump.stage = s.pump.stage := by
  cases calls : s.pump.calls with
  | nil => exact ⟨0, calls, rfl⟩
  | cons c rest =>
      have turned := turn_call calls none
      obtain ⟨n, none_left, stage⟩ := calls_end (s.turn (.own none))
      refine ⟨n + 1, none_left, stage.trans ?_⟩
      rw [turned]
termination_by s.hub.measure s.pump.calls
decreasing_by
  rw [turned, calls]
  exact Hub.measure_step s.hub c rest

theorem ends_later (turns : Nat) (ends : ∃ n,
    ((s.run (.replicate turns (.own none))).run (.replicate n (.own none))).pump.hasEnded = true) :
    ∃ n, (s.run (.replicate n (.own none))).pump.hasEnded = true := by
  obtain ⟨n, ended⟩ := ends
  rw [← run_append, List.replicate_append_replicate] at ended
  exact ⟨turns + n, ended⟩

theorem ends_gone (gone : s.pump.stage = .unregistering ∨ s.pump.stage = .done) :
    ∃ n, (s.run (.replicate n (.own none))).pump.hasEnded = true := by
  obtain ⟨n, calls, stage⟩ := calls_end s
  rw [← stage] at gone
  obtain ⟨done, -⟩ := turn_gone calls gone none
  obtain ⟨m, none_left, still⟩ := calls_end ((s.run (.replicate n (.own none))).turn (.own none))
  refine ends_later n (ends_later 1 ⟨m, ?_⟩)
  rw [Pump.hasEnded]
  exact decide_eq_true ⟨still.trans done, none_left⟩

/-- Left to itself, a pump that has stopped comes to its end. -/
theorem ends_alone (silent : s.pump.stage.talks = false) :
    ∃ n, (s.run (.replicate n (.own none))).pump.hasEnded = true := by
  cases stage : s.pump.stage with
  | starting | checking | waiting =>
      rw [stage] at silent
      exact absurd silent (by simp [Pump.Stage.talks])
  | unregistering => exact ends_gone (.inl stage)
  | done => exact ends_gone (.inr stage)
  | leaving exit =>
      obtain ⟨n, calls, still⟩ := calls_end s
      obtain ⟨next, -⟩ := turn_leaves calls (still.trans stage) none
      exact ends_later n (ends_later 1 (ends_gone (.inl next)))

/-! ### Over an error -/

/-- How a connection has ended that stopped over an error, some turns ago. -/
structure EndsOver (key : SessionKey) (t : Session) (error : Session.Error) (exit : Exit)
    (s : Serving) (turns : List Turn) : Prop where
  endpoint : ∃ t' made, (s.run turns).hub.session? key = some t' ∧ t'.heard = t.heard ++ made
    ∧ made.filterMap Callback.error? = [error]
  /-- It has been reported, and every report has been told to the listeners of the moment. -/
  listeners : (∃ r ∈ Hub.reports (s.run turns).past, r.subject = (key, error))
    ∧ Hub.errorsTold (s.run turns).past = (Hub.reports (s.run turns).past).flatMap Report.tellings
  /-- Nothing has been written since but the farewell that goes with the reason. -/
  written : ∃ farewell, Left s turns exit farewell
    ∧ (s.run turns).pump.written = s.pump.written ++ farewell

/-- A pump that fails over an error stops, and its endpoint has heard of the error. -/
theorem turn_fails {u : Session} {error : Session.Error} {choice : Option Pump.Choice}
    {made : List Callback} (under : Underway key u.endpoint u.heard made s)
    (calls : s.pump.calls = [])
    (fails : s.pump.step s.hub choice = s.pump.fail s.hub error exit) :
    (s.turn (.own choice)).pump.stage = .leaving exit
      ∧ (s.turn (.own choice)).pump.written = s.pump.written
      ∧ (s.turn (.own choice)).hub.appSide key
        = some (u.endpoint, u.heard ++ (made ++ [.failed error])) := by
  have told := under.appSide
  rw [← under.serves] at told ⊢
  obtain ⟨more, failed⟩ := Pump.fail_eq s.hub s.pump error exit
  rw [turn_own_idle calls, fails, ← List.append_assoc]
  refine ⟨?_, ?_, Pump.appSide_fail told error exit⟩
  · rw [failed]
  · rw [failed]

theorem ends_after_failure {u : Session} {error : Session.Error} {choice : Option Pump.Choice}
    {made : List Callback} (under : Underway key u.endpoint u.heard made s)
    (calls : s.pump.calls = [])
    (fails : s.pump.step s.hub choice = s.pump.fail s.hub error exit) (turns : List Turn) :
    ∃ n, (s.run (.own choice :: turns ++ .replicate n (.own none))).pump.hasEnded = true := by
  obtain ⟨leaving, -, -⟩ := turn_fails under calls fails
  simp only [List.cons_append, Serving.run, run_append]
  refine ends_alone ?_
  rcases run_leaving leaving turns with still | ⟨unregistering | done, -⟩
  · rw [still]
    rfl
  · rw [unregistering]
    rfl
  · rw [done]
    rfl

theorem Underway.reported {made : List Callback} {error : Session.Error}
    (under : Underway key e heard made s) (calls : s.pump.calls = [])
    (told : .failed error ∈ made) :
    (∃ r ∈ Hub.reports s.past, r.subject = (key, error))
      ∧ Hub.errorsTold s.past = (Hub.reports s.past).flatMap Report.tellings := by
  have reporting := under.reporting
  rw [calls] at reporting
  have announced := reporting.announced
  have all_told := reporting.told
  rw [List.filterMap_nil, List.append_nil] at announced
  rw [List.flatMap_nil, List.append_nil] at all_told
  refine ⟨List.mem_map.mp ?_, all_told⟩
  rw [announced]
  rw [← e.outcomes_fst heard made] at told
  obtain ⟨o, outcome, first⟩ := List.mem_map.mp told
  refine List.mem_map.mpr ⟨error, List.mem_flatMap.mpr ⟨o, outcome, ?_⟩, rfl⟩
  rw [Outcome.errors, first]
  exact List.mem_append_right _ List.mem_cons_self

/-- However a connection goes on whose pump fails over an error, among whatever else happens: when
it has ended, it has ended over that error. -/
theorem Sound.ends_over {u : Session} {error : Session.Error} {choice : Option Pump.Choice}
    (sound : Sound key u.endpoint u.heard s) (calls : s.pump.calls = [])
    (fails : s.pump.step s.hub choice = s.pump.fail s.hub error exit)
    (spares : ∀ d, .elsewhere d ∈ turns → d.spares key = true)
    (ended : (s.run (.own choice :: turns)).pump.hasEnded = true) :
    EndsOver key u error exit s (.own choice :: turns) := by
  obtain ⟨made, under, -⟩ := id sound
  obtain ⟨leaving, same, told⟩ := turn_fails under calls fails
  have next : Sound key u.endpoint u.heard (s.turn (.own choice)) := sound.turn (by simp)
  obtain ⟨more, last⟩ := next.grows_run spares told
  obtain ⟨all, under', reached⟩ := next.run spares
  rw [Serving.run] at ended
  obtain ⟨done, idle⟩ : ((s.turn (.own choice)).run turns).pump.stage = .done
      ∧ ((s.turn (.own choice)).run turns).pump.calls = [] := by simpa [Pump.hasEnded] using ended
  have course : Course (u.endpoint.outcomes u.heard all) := by
    rw [done] at reached
    cases reached with
    | done course => exact course
  -- What the endpoint has had at the end goes on from what it had when the pump failed.
  have among : .failed error ∈ all := by
    have heard := Option.some.inj (under'.appSide.symm.trans last)
    rw [List.append_assoc u.heard] at heard
    rw [List.append_cancel_left (Prod.mk.inj heard).2]
    simp
  refine ⟨?_, under'.reported idle among, ?_⟩
  · have there := under'.appSide
    rw [Hub.appSide] at there
    obtain ⟨t', found, same⟩ := Option.map_eq_some_iff.mp there
    exact ⟨t', all, found, (Prod.mk.inj same).2, course.told_once among⟩
  · rcases run_leaving leaving turns with still | ⟨-, farewell, left, written⟩
    · exact absurd (still.symm.trans done) (by simp)
    · exact ⟨farewell, left.earlier, written.trans (by rw [same])⟩

end Serving
end Connection
end Gateway
