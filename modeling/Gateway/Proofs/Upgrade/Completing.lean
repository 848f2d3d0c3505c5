import Gateway.Proofs.Upgrade.Turns

/-!
What completes an exchange. Whatever the order of turns, an exchange that a mapping takes completes
once: with what was reported first, or else with how its creator ended, or else as cancelled. An
exchange that no mapping takes is not touched.
-/
namespace Gateway.Upgrade

def Finish.outcome : Finish → Outcome
  | .accept _ | .decline => .succeeded
  | .fail e => .failed (.creator e)
  | .panic payload => .failed (.panicked payload.message)

namespace Completion

/-- Nothing but the first report has reached the callback. -/
def Follows (c : Completion) (reports : List Outcome) : Prop :=
  c.calls = reports.head?.toList ∧ c.armed = reports.isEmpty

/-- The callback has run once, with the first report or else with an outcome. -/
def Settled (c : Completion) (reports : List Outcome) (o : Outcome) : Prop :=
  c.calls = [reports.head?.getD o] ∧ c.armed = false

variable {c : Completion} {reports : List Outcome} {o : Outcome}

theorem Follows.fire (h : c.Follows reports) (o : Outcome) :
    (c.fire o).1.Follows (reports ++ [o]) := by
  obtain ⟨calls, armed⟩ := h
  cases reports with
  | nil => simp_all [Completion.fire, Follows]
  | cons first rest => simp_all [Completion.fire, Follows]

theorem Follows.settle (h : c.Follows reports) (o : Outcome) :
    (c.fire o).1.Settled reports o := by
  obtain ⟨calls, armed⟩ := h
  cases reports with
  | nil => simp_all [Completion.fire, Settled]
  | cons first rest => simp_all [Completion.fire, Settled]

theorem Follows.settled (h : c.Follows reports) (completed : c.isCompleted = true) (o : Outcome) :
    c.Settled reports o := by
  obtain ⟨calls, armed⟩ := h
  cases reports with
  | nil => simp_all [isCompleted]
  | cons first rest => simp_all [Settled]

theorem Settled.fire (h : c.Settled reports o) (late : Outcome) : (c.fire late).1 = c := by
  rw [Completion.fire, h.2]
  rfl

theorem Settled.of_reported {o' : Outcome} (h : c.Settled reports o)
    (same : o = o' ∨ reports ≠ []) : c.Settled reports o' := by
  rcases same with rfl | some_report
  · exact h
  · cases reports with
    | nil => exact absurd rfl some_report
    | cons first rest => exact h

end Completion

namespace Exchange

/-- The outcome that a turn reports on an exchange that has not ended, by the creator or by
others. -/
def reported (x : Exchange) : Turn → Option Outcome
  | .step =>
    match x.stage with
    | .creating _ (.fire o _ :: _) _ => some o
    | _ => none
  | .report o => if x.hasEnded then none else some o
  | .drop | .elsewhere _ => none

def reports (c : Container) (h : Hub) (x : Exchange) : List Turn → List Outcome
  | [] => []
  | t :: rest => (x.reported t).toList ++ (x.turn c h t).2.reports c (x.turn c h t).1 rest

variable {c : Container} {x : Exchange} {reports : List Outcome} {plan : Plan}

theorem fire_exchange (h : Hub) (x : Exchange) (o : Outcome) :
    (x.fire h o).2.1 = { x with completion := (x.completion.fire o).1 } := by
  unfold fire Completion.fire
  by_cases armed : x.completion.armed = true
  · simp [armed]
  · simp [armed]

/-- How far an exchange is with a plan, given what was reported on it. -/
def Progress (plan : Plan) (reports : List Outcome) (x : Exchange) : Prop :=
  match x.stage with
  | .arrived => False
  | .creating _ _ finish | .calling _ _ _ finish =>
    finish = plan.finish ∧ x.completion.Follows reports
  | .created _ finish =>
    (finish = plan.finish ∨ finish = .fail .alreadyCompleted ∧ reports ≠ [])
      ∧ x.completion.Follows reports
  | .opening _ _ => plan.finish.outcome = .succeeded ∧ x.completion.Follows reports
  | .finished handled => handled = true ∧ x.completion.Settled reports plan.finish.outcome
  | .dropped => x.completion.Settled reports (.failed .cancelled)

theorem follows_perform (h : Hub) (matched : Path.Match) (rest : List CreatorAct)
    (a : CreatorAct) (stage : x.stage = .creating matched (a :: rest) plan.finish)
    (follows : x.completion.Follows reports) :
    (x.perform h matched rest plan.finish a).2.Progress plan
      (reports ++ (x.reported .step).toList) := by
  cases a with
  | fire o lenient =>
      have reported : x.reported .step = some o := by simp [Exchange.reported, stage]
      have fired := follows.fire o
      rw [reported]
      simp only [perform]
      by_cases goes_on : ((x.fire h o).2.2 || lenient) = true
      · rw [if_pos goes_on, fire_exchange]
        exact ⟨rfl, fired⟩
      · rw [if_neg goes_on, fire_exchange]
        exact ⟨.inr ⟨rfl, by simp⟩, fired⟩
  | stall =>
      have reported : x.reported .step = none := by simp [Exchange.reported, stage]
      rw [reported, Option.toList_none, List.append_nil, perform, Progress, stage]
      exact ⟨rfl, follows⟩
  | _ =>
      have reported : x.reported .step = none := by simp [Exchange.reported, stage]
      rw [reported, Option.toList_none, List.append_nil]
      exact ⟨rfl, follows⟩

theorem failWith_exchange (h : Hub) (x : Exchange) (e : NegotiationError) :
    (x.failWith h e).2 =
      { x with completion := (x.completion.fire (.failed e)).1, stage := .finished true } := by
  simp only [failWith, conclude, fire_exchange]

theorem settled_failWith (h : Hub) (follows : x.completion.Follows reports)
    (e : NegotiationError) : (x.failWith h e).2.stage = .finished true
      ∧ (x.failWith h e).2.completion.Settled reports (.failed e) := by
  rw [failWith_exchange]
  exact ⟨rfl, follows.settle _⟩

theorem settled_judge (h : Hub) (matched : Path.Match) (finish : Finish)
    (follows : x.completion.Follows reports) :
    (x.judge h matched finish).2.stage = .finished true
        ∧ (x.judge h matched finish).2.completion.Settled reports finish.outcome
      ∨ (∃ key calls, (x.judge h matched finish).2.stage = .opening key calls)
        ∧ finish.outcome = .succeeded ∧ (∃ endpoint, finish = .accept endpoint)
        ∧ (x.judge h matched finish).2.completion.Follows reports := by
  cases finish with
  | accept endpoint =>
      by_cases completed : x.completion.isCompleted = true
      · rw [judge, if_pos completed]
        exact .inl ⟨rfl, follows.settled completed _⟩
      · rw [judge, if_neg completed]
        exact .inr ⟨⟨_, _, rfl⟩, rfl, ⟨endpoint, rfl⟩, follows⟩
  | decline =>
      by_cases completed : x.completion.isCompleted = true
      · simp only [judge, if_pos completed]
        exact .inl ⟨rfl, follows.settled completed _⟩
      · have ended : (x.judge h matched .decline).2 =
            { x with completion := (x.completion.fire .succeeded).1, stage := .finished true } := by
          simp only [judge, if_neg completed, conclude, fire_exchange]
        rw [ended]
        exact .inl ⟨rfl, follows.settle _⟩
  | fail e => exact .inl (settled_failWith h follows (.creator e))
  | panic payload => exact .inl (settled_failWith h follows (.panicked payload.message))

theorem progress_step (h : Hub) (p : x.Progress plan reports) :
    (x.step c h).2.Progress plan (reports ++ (x.reported .step).toList) := by
  obtain ⟨request, response, completion, stage⟩ := x
  cases stage with
  | arrived => exact absurd p id
  | creating matched acts finish =>
      obtain ⟨rfl, follows⟩ := p
      cases acts with
      | nil =>
          rw [reported, Option.toList_none, List.append_nil]
          exact ⟨.inl rfl, follows⟩
      | cons a rest => exact follows_perform h matched rest a rfl follows
  | calling matched calls acts finish =>
      rw [reported, Option.toList_none, List.append_nil]
      cases calls with
      | nil | cons => exact p
  | created matched finish =>
      obtain ⟨planned, follows⟩ := p
      rw [reported, Option.toList_none, List.append_nil, step, Progress]
      rcases settled_judge h matched finish follows with
        ⟨ended, settled⟩ | ⟨⟨key, calls, opened⟩, success, ⟨endpoint, accepts⟩, still⟩
      · rw [ended]
        refine ⟨rfl, settled.of_reported ?_⟩
        rcases planned with rfl | ⟨-, some_report⟩
        · exact .inl rfl
        · exact .inr some_report
      · rw [opened]
        refine ⟨?_, still⟩
        rcases planned with rfl | ⟨failed, -⟩
        · exact success
        · rw [accepts] at failed
          exact absurd failed (by simp)
  | opening key calls =>
      obtain ⟨accepts, follows⟩ := p
      rw [reported, Option.toList_none, List.append_nil]
      cases calls with
      | nil =>
          have settled := follows.settle .succeeded
          rw [← accepts] at settled
          simp only [step, conclude, fire_exchange]
          rw [← accepts]
          exact ⟨rfl, settled⟩
      | cons call calls => exact ⟨accepts, follows⟩
  | finished handled =>
      rw [reported, Option.toList_none, List.append_nil]
      exact p
  | dropped =>
      rw [reported, Option.toList_none, List.append_nil]
      exact p

theorem progress_abandon (h : Hub) (p : x.Progress plan reports) :
    (x.abandon h).2.Progress plan reports := by
  obtain ⟨request, response, completion, stage⟩ := x
  cases stage with
  | arrived => exact absurd p id
  | creating matched acts finish =>
      obtain ⟨-, follows⟩ := p
      by_cases completed : completion.isCompleted = true
      · simp only [abandon, if_pos completed]
        exact follows.settled completed _
      · simp only [abandon, if_neg completed, fire_exchange]
        exact follows.settle _
  | calling | created | opening | finished | dropped => exact p

theorem progress_report (h : Hub) (p : x.Progress plan reports) (o : Outcome) :
    (x.fire h o).2.1.Progress plan (reports ++ (x.reported (.report o)).toList) := by
  rw [fire_exchange]
  obtain ⟨request, response, completion, stage⟩ := x
  cases stage with
  | arrived => exact absurd p id
  | creating | calling => exact ⟨p.1, p.2.fire o⟩
  | created =>
      refine ⟨?_, p.2.fire o⟩
      rcases p.1 with planned | ⟨failed, -⟩
      · exact .inl planned
      · exact .inr ⟨failed, List.append_ne_nil_of_right_ne_nil reports (List.cons_ne_nil o [])⟩
  | opening => exact ⟨p.1, p.2.fire o⟩
  | finished handled =>
      have same : (completion.fire o).1 = completion := p.2.fire o
      have silent := List.append_nil reports
      simp only [same]
      rw [← silent] at p
      exact p
  | dropped =>
      have same : (completion.fire o).1 = completion := p.fire o
      have silent := List.append_nil reports
      simp only [same]
      rw [← silent] at p
      exact p

/-- One turn keeps an exchange with its plan. -/
theorem progress_turn (h : Hub) (p : x.Progress plan reports) (t : Turn) :
    (x.turn c h t).2.Progress plan (reports ++ (x.reported t).toList) := by
  cases t with
  | step => exact progress_step h p
  | drop =>
      rw [reported, Option.toList_none, List.append_nil]
      exact progress_abandon h p
  | report o => exact progress_report h p o
  | elsewhere f =>
      rw [reported, Option.toList_none, List.append_nil]
      exact p

theorem progress_play (h : Hub) (p : x.Progress plan reports) (turns : List Turn) :
    (x.play c h turns).2.Progress plan (reports ++ x.reports c h turns) := by
  induction turns generalizing h x reports with
  | nil => rwa [play, Exchange.reports, List.append_nil]
  | cons t rest ih =>
      rw [play, Exchange.reports, ← List.append_assoc]
      exact ih (x.turn c h t).1 (progress_turn h p t)

theorem progress_of_begins {n : Negotiator} {matched : Path.Match} (h : Hub)
    (arrived : x.stage = .arrived) (follows : x.completion.Follows reports)
    (found : c.resolve x.request.path = some (n, matched)) {turns : List Turn}
    (begins : Turn.begins turns = true) :
    (x.play c h turns).2.Progress (n.creator { x.request with matched := some matched })
      (reports ++ x.reports c h turns) := by
  induction turns generalizing h x reports with
  | nil => exact absurd begins (by simp [Turn.begins])
  | cons t rest ih =>
      rw [play, Exchange.reports, ← List.append_assoc]
      cases t with
      | step =>
          have silent : x.reported .step = none := by simp [reported, arrived]
          rw [silent, Option.toList_none, List.append_nil]
          refine progress_play _ ?_ rest
          simp only [turn, step, arrived, found]
          exact ⟨rfl, follows⟩
      | drop => exact absurd begins (by simp [Turn.begins])
      | report o =>
          have told : x.reported (.report o) = some o := by simp [reported, hasEnded, arrived]
          rw [told]
          rw [turn, fire_exchange]
          exact ih (x := { x with completion := (x.completion.fire o).1 }) (x.fire h o).1 arrived
            (follows.fire o) found begins
      | elsewhere f =>
          rw [reported, Option.toList_none, List.append_nil]
          exact ih (f h) arrived follows found begins

/-- Nothing of the exchange has changed but what others reported. -/
def Untouched (x : Exchange) (told : List Outcome) (x' : Exchange) : Prop :=
  x'.request = x.request ∧ x'.response = x.response
    ∧ x'.completion = told.foldl (fun c o => (c.fire o).1) x.completion

/-- Nothing is under way, and nothing will be. -/
def Idle (c : Container) (x : Exchange) : Prop :=
  x.stage = .arrived ∧ c.resolve x.request.path = none ∨ x.stage = .finished false
    ∨ x.stage = .dropped

theorem turn_of_ended (h : Hub) (ended : x.hasEnded = true) {t : Turn} (own : t.isOwn = true) :
    x.turn c h t = (h, x) := by
  obtain ⟨request, response, completion, stage⟩ := x
  cases t with
  | step =>
      cases stage with
      | finished | dropped => rfl
      | arrived | creating | calling | created | opening => exact absurd ended Bool.false_ne_true
  | drop =>
      cases stage with
      | finished | dropped => rfl
      | arrived | creating | calling | created | opening => exact absurd ended Bool.false_ne_true
  | report | elsewhere => exact absurd own Bool.false_ne_true

theorem idle_turn (h : Hub) (idle : x.Idle c) (t : Turn) : (x.turn c h t).2.Idle c
    ∧ x.Untouched (Turn.outside [t]) (x.turn c h t).2
    ∧ (t.isOwn = true → ∃ entries, (x.turn c h t).1
        = { h with journal := h.journal ++ entries }) := by
  by_cases own : t.isOwn = true
  · have silent : Turn.outside [t] = [] := by
      cases t with
      | step | drop => rfl
      | report | elsewhere => exact absurd own Bool.false_ne_true
    have quiet : h = { h with journal := h.journal ++ [] } := by rw [List.append_nil]
    rw [silent]
    by_cases ended : x.hasEnded = true
    · rw [turn_of_ended h ended own]
      exact ⟨idle, ⟨rfl, rfl, rfl⟩, fun _ => ⟨[], quiet⟩⟩
    · have fresh : x.stage = .arrived ∧ c.resolve x.request.path = none := by
        rcases idle with fresh | finished | dropped
        · exact fresh
        · exact absurd (by simp [hasEnded, finished]) ended
        · exact absurd (by simp [hasEnded, dropped]) ended
      obtain ⟨arrived, unmatched⟩ := fresh
      cases t with
      | step =>
          simp only [turn, step, arrived, unmatched]
          exact ⟨.inr (.inl rfl), ⟨rfl, rfl, rfl⟩, fun _ => ⟨_, rfl⟩⟩
      | drop =>
          simp only [turn, abandon, arrived]
          exact ⟨.inr (.inr rfl), ⟨rfl, rfl, rfl⟩, fun _ => ⟨[], quiet⟩⟩
      | report | elsewhere => exact absurd own Bool.false_ne_true
  · cases t with
    | step | drop => exact absurd rfl own
    | report o =>
        rw [turn, fire_exchange]
        exact ⟨idle, ⟨rfl, rfl, rfl⟩, fun is_own => absurd is_own own⟩
    | elsewhere f => exact ⟨idle, ⟨rfl, rfl, rfl⟩, fun is_own => absurd is_own own⟩

theorem Untouched.trans {x' x'' : Exchange} {told more : List Outcome}
    (first : x.Untouched told x') (second : x'.Untouched more x'') :
    x.Untouched (told ++ more) x'' := by
  obtain ⟨request, response, completion⟩ := first
  obtain ⟨request', response', completion'⟩ := second
  refine ⟨request'.trans request, response'.trans response, ?_⟩
  rw [completion', completion, List.foldl_append]

theorem outside_cons (t : Turn) (rest : List Turn) :
    Turn.outside (t :: rest) = Turn.outside [t] ++ Turn.outside rest := by
  cases t <;> rfl

theorem idle_play (h : Hub) (idle : x.Idle c) (turns : List Turn) :
    (x.play c h turns).2.Idle c ∧ x.Untouched (Turn.outside turns) (x.play c h turns).2 := by
  induction turns generalizing h x with
  | nil => exact ⟨idle, rfl, rfl, rfl⟩
  | cons t rest ih =>
      obtain ⟨idle', first, -⟩ := idle_turn h idle t
      obtain ⟨idle'', second⟩ := ih (x.turn c h t).1 idle'
      rw [play, outside_cons]
      exact ⟨idle'', first.trans second⟩

theorem untouched_of_not_begins (h : Hub) (arrived : x.stage = .arrived) {turns : List Turn}
    (unbegun : Turn.begins turns = false) :
    x.Untouched (Turn.outside turns) (x.play c h turns).2 := by
  induction turns generalizing h x with
  | nil => exact ⟨rfl, rfl, rfl⟩
  | cons t rest ih =>
      cases t with
      | step => exact absurd unbegun (by simp [Turn.begins])
      | drop =>
          have dropped : (x.turn c h .drop).2 = { x with stage := .dropped } := by
            simp [turn, abandon, arrived]
          have idle : Idle c { x with stage := .dropped } := .inr (.inr rfl)
          have untouched := (idle_play (x.turn c h .drop).1 idle rest).2
          rw [play, dropped]
          exact untouched
      | report o =>
          have later := ih (x := (x.fire h o).2.1) (x.fire h o).1
          rw [fire_exchange] at later
          rw [play, turn, fire_exchange]
          exact later arrived unbegun
      | elsewhere f => exact ih (f h) arrived unbegun

theorem finished_turn (h : Hub) {handled : Bool} (finished : x.stage = .finished handled)
    (t : Turn) : (x.turn c h t).2.stage = .finished handled := by
  cases t with
  | step => simp [turn, step, finished]
  | drop => simp [turn, abandon, finished]
  | report o => simp [turn, fire_exchange, finished]
  | elsewhere f => exact finished

theorem finished_play (h : Hub) {handled : Bool} (finished : x.stage = .finished handled)
    (turns : List Turn) : (x.play c h turns).2.stage = .finished handled := by
  induction turns generalizing h x with
  | nil => exact finished
  | cons t rest ih => exact ih (x.turn c h t).1 (finished_turn h finished t)

theorem finished_of_begins (h : Hub) (unmatched : c.resolve x.request.path = none)
    (arrived : x.stage = .arrived) {turns : List Turn} (begins : Turn.begins turns = true) :
    (x.play c h turns).2.stage = .finished false := by
  induction turns generalizing h x with
  | nil => exact absurd begins (by simp [Turn.begins])
  | cons t rest ih =>
      cases t with
      | step =>
          refine finished_play _ ?_ rest
          simp only [turn, step, arrived, unmatched]
      | drop => exact absurd begins (by simp [Turn.begins])
      | report o =>
          rw [play]
          refine ih (x.fire h o).1 ?_ ?_ begins
          · rw [turn, fire_exchange]
            exact unmatched
          · rw [turn, fire_exchange]
            exact arrived
      | elsewhere f => exact ih (f h) unmatched arrived begins

end Exchange

/-- Any number of exchanges, in any order of turns. An exchange sees its own turns and a hub that
others change. One that no mapping takes is answered so, and neither it nor the registry is
touched. One that is taken, and under way before it is dropped, has completed once when it has
ended: with the first outcome reported on it, or else with its creator's ending, or else as
cancelled. -/
theorem exchanges_complete_once (c : Container) (h : Hub) (xs : List Exchange)
    (turns : List (Nat × Turn)) {i : Nat} {x : Exchange} (present : xs[i]? = some x)
    (arrived : x.stage = .arrived) (unfired : x.completion.armed = true)
    (uncalled : x.completion.calls = []) :
    let own := seenBy i c h xs turns
    ∃ x', (playAmong c h xs turns).2[i]? = some x'
      ∧ x.play c h own = ((playAmong c h xs turns).1, x')
      ∧ match c.resolve x.request.path with
        | none =>
          x.Untouched (Turn.outside own) x' ∧ (Turn.begins own = true → x'.stage = .finished false)
            ∧ ∀ h t, t.isOwn = true → ∃ entries,
              (x'.turn c h t).1 = { h with journal := h.journal ++ entries }
        | some (n, matched) =>
          (Turn.begins own = false → x.Untouched (Turn.outside own) x')
            ∧ (Turn.begins own = true → x'.hasEnded = true →
              x'.stage = .finished true ∧ x'.completion.calls = [(x.reports c h own).head?.getD
                  (n.creator { x.request with matched := some matched }).finish.outcome]
                ∨ x'.stage = .dropped ∧ x'.completion.calls
                  = [(x.reports c h own).head?.getD (.failed .cancelled)]) := by
  intro own
  obtain ⟨hub, mine⟩ := playAmong_alone c h xs turns present
  refine ⟨(x.play c h own).2, mine, ?_, ?_⟩
  · rw [hub]
  · cases found : c.resolve x.request.path with
    | none =>
        obtain ⟨idle, untouched⟩ := Exchange.idle_play h (.inl ⟨arrived, found⟩) own
        refine ⟨untouched, Exchange.finished_of_begins h found arrived, ?_⟩
        intro h' t is_own
        exact (Exchange.idle_turn h' idle t).2.2 is_own
    | some taken =>
        obtain ⟨n, matched⟩ := taken
        refine ⟨Exchange.untouched_of_not_begins h arrived, ?_⟩
        intro begins ended
        have follows : x.completion.Follows [] := ⟨uncalled, unfired⟩
        have progress := Exchange.progress_of_begins h arrived follows found begins
        generalize (x.play c h own).2 = x' at progress ended ⊢
        obtain ⟨request, response, completion, stage⟩ := x'
        cases stage with
        | finished handled =>
            obtain ⟨rfl, settled⟩ := progress
            exact .inl ⟨rfl, settled.1⟩
        | dropped => exact .inr ⟨rfl, progress.1⟩
        | arrived | creating | calling | created | opening =>
            exact absurd ended (by simp [Exchange.hasEnded])

/-- One creator waits forever and is dropped, one panics, and one ends with an endpoint. -/
theorem exchanges_complete_once_each :
    let creator : Creator := fun request =>
      match request.subprotocols with
      | [] => { acts := [.stall], finish := .decline }
      | [_] => { finish := .panic (.text "lost") }
      | _ => { finish := .accept .echo }
    let c : Container := { negotiators := ⟨[(.default, ⟨.default, creator, {}⟩)]⟩ }
    let xs : List Exchange := [{ request := { path := "/" } },
      { request := { path := "/", subprotocols := ["v1"] } },
      { request := { path := "/", subprotocols := ["v1", "v2"] } }]
    let turns := [(0, .step), (2, .step), (1, .step), (0, .step), (1, .step), (0, .drop),
      (1, .step)] ++ List.replicate 8 (2, .step)
    let ends (i : Nat) (stage : Stage) (o : Outcome) : Prop :=
      ∃ x', (playAmong c {} xs turns).2[i]? = some x' ∧ x'.stage = stage ∧ x'.completion.calls = [o]
    ends 0 .dropped (.failed .cancelled)
      ∧ ends 1 (.finished true) (.failed (.panicked "lost"))
      ∧ ends 2 (.finished true) .succeeded := by
  intro creator c xs turns ends
  let after := playAmong c {} xs turns
  have dropped : after.2.map (fun x => x.stage matches .dropped) = [true, false, false] := by
    decide +kernel
  have ended : after.2.map Exchange.hasEnded = [true, true, true] := by decide +kernel
  have how {i : Nat} {x' : Exchange} (mine : after.2[i]? = some x') :
      [true, true, true][i]? = some x'.hasEnded
        ∧ [true, false, false][i]? = some (x'.stage matches .dropped) := by
    rw [← ended, ← dropped, List.getElem?_map, List.getElem?_map, mine]
    exact ⟨rfl, rfl⟩
  refine ⟨?_, ?_, ?_⟩
  · obtain ⟨x', mine, -, completes⟩ :=
      exchanges_complete_once c {} xs turns (i := 0) rfl rfl rfl rfl
    obtain ⟨has_ended, was_dropped⟩ := how mine
    rcases completes.2 rfl (Option.some.inj has_ended.symm) with ⟨finished, -⟩ | ⟨stage, calls⟩
    · rw [finished] at was_dropped
      exact absurd was_dropped (by decide)
    · exact ⟨x', mine, stage, calls.trans (by decide +kernel)⟩
  · obtain ⟨x', mine, -, completes⟩ :=
      exchanges_complete_once c {} xs turns (i := 1) rfl rfl rfl rfl
    obtain ⟨has_ended, was_dropped⟩ := how mine
    rcases completes.2 rfl (Option.some.inj has_ended.symm) with ⟨stage, calls⟩ | ⟨cut_off, -⟩
    · exact ⟨x', mine, stage, calls.trans (by decide +kernel)⟩
    · rw [cut_off] at was_dropped
      exact absurd was_dropped (by decide)
  · obtain ⟨x', mine, -, completes⟩ :=
      exchanges_complete_once c {} xs turns (i := 2) rfl rfl rfl rfl
    obtain ⟨has_ended, was_dropped⟩ := how mine
    rcases completes.2 rfl (Option.some.inj has_ended.symm) with ⟨stage, calls⟩ | ⟨cut_off, -⟩
    · exact ⟨x', mine, stage, calls.trans (by decide +kernel)⟩
    · rw [cut_off] at was_dropped
      exact absurd was_dropped (by decide)

end Gateway.Upgrade
