import Gateway.Proofs.Upgrade.Completing

/-!
What a failed exchange leaves behind. An endpoint becomes a session only if nothing has been
reported by then, so a failure reported earlier leaves no session. A failure reported while the
session is being opened is what the exchange completes with, and the session stays.
-/
namespace Gateway.Upgrade.Exchange

def makes? (h : Hub) (x : Exchange) : Turn → Option SessionKey
  | .step =>
    match x.stage with
    | .created _ (.accept _) => if x.completion.isCompleted then none else some h.nextKey
    | _ => none
  | .drop | .report _ | .elsewhere _ => none

/-- What others report while a session is being opened. -/
def late? (x : Exchange) : Turn → Option Outcome
  | .report o =>
    match x.stage with
    | .opening _ _ => some o
    | _ => none
  | .step | .drop | .elsewhere _ => none

def made (c : Container) (h : Hub) (x : Exchange) : List Turn → List SessionKey
  | [] => []
  | t :: rest => (x.makes? h t).toList ++ (x.turn c h t).2.made c (x.turn c h t).1 rest

def lateReports (c : Container) (h : Hub) (x : Exchange) : List Turn → List Outcome
  | [] => []
  | t :: rest => (x.late? t).toList ++ (x.turn c h t).2.lateReports c (x.turn c h t).1 rest

def Sessionless (keys : List SessionKey) (late : List Outcome) (x : Exchange) : Prop :=
  keys = [] ∧ late = [] ∧ x.response.session = none

/-- How far an exchange is with its session, given the sessions it has made and what was reported
while one was being opened. -/
def Leaves (keys : List SessionKey) (late : List Outcome) (x : Exchange) : Prop :=
  match x.stage with
  | .arrived | .creating _ _ _ | .calling _ _ _ _ | .created _ _ =>
    x.Sessionless keys late ∧ (x.completion.armed = true → x.completion.calls = [])
  | .opening key _ =>
    keys = [key] ∧ x.response.session = none ∧ x.completion.Follows late
  | .finished _ => x.Sessionless keys late ∨ ∃ key, keys = [key]
    ∧ x.response.session = some key ∧ x.completion.Settled late .succeeded
  | .dropped => x.Sessionless keys late

variable {c : Container} {x : Exchange} {keys : List SessionKey} {late : List Outcome}

theorem armed_fire (completion : Completion) (o : Outcome) :
    (completion.fire o).1.armed = true → (completion.fire o).1.calls = [] := by
  rw [Completion.fire]
  by_cases armed : completion.armed = true
  · simp [armed]
  · simp [armed]

theorem leaves_perform (h : Hub) (matched : Path.Match) (rest : List CreatorAct) (finish : Finish)
    (a : CreatorAct) (stage : x.stage = .creating matched (a :: rest) finish)
    (none_made : x.Sessionless keys late)
    (unspent : x.completion.armed = true → x.completion.calls = []) :
    (x.perform h matched rest finish a).2.Leaves keys late := by
  cases a with
  | fire o lenient =>
      simp only [perform]
      rw [fire_exchange]
      split
      · exact ⟨none_made, armed_fire x.completion o⟩
      · exact ⟨none_made, armed_fire x.completion o⟩
  | stall =>
      rw [perform, Leaves, stage]
      exact ⟨none_made, unspent⟩
  | acceptSubprotocol | customize | edit | sendError | appendHeader | note | call | pause =>
      exact ⟨none_made, unspent⟩

/-- A creator's ending makes a session when it is an endpoint and nothing was reported. -/
theorem leaves_judge (h : Hub) (matched : Path.Match) (finish : Finish)
    (stage : x.stage = .created matched finish) (none_made : x.Sessionless keys late)
    (unspent : x.completion.armed = true → x.completion.calls = []) :
    (x.judge h matched finish).2.Leaves (keys ++ (x.makes? h .step).toList) late := by
  obtain ⟨rfl, rfl, session⟩ := none_made
  cases finish with
  | accept endpoint =>
      by_cases completed : x.completion.isCompleted = true
      · have none_new : x.makes? h .step = none := by simp [makes?, stage, completed]
        rw [none_new, judge, if_pos completed]
        exact .inl ⟨rfl, rfl, session⟩
      · -- Nothing was reported, so from here on the completion follows what is reported late.
        have new : x.makes? h .step = some h.nextKey := by simp [makes?, stage, completed]
        have armed : x.completion.armed = true := by
          simpa [Completion.isCompleted] using completed
        rw [new, judge, if_neg completed]
        exact ⟨rfl, session, unspent armed, armed⟩
  | decline =>
      have none_new : x.makes? h .step = none := by simp [makes?, stage]
      rw [none_new]
      by_cases completed : x.completion.isCompleted = true
      · simp only [judge, if_pos completed]
        exact .inl ⟨rfl, rfl, session⟩
      · simp only [judge, if_neg completed, conclude, fire_exchange]
        exact .inl ⟨rfl, rfl, session⟩
  | fail e =>
      have none_new : x.makes? h .step = none := by simp [makes?, stage]
      rw [none_new, judge, failWith_exchange]
      exact .inl ⟨rfl, rfl, session⟩
  | panic payload =>
      have none_new : x.makes? h .step = none := by simp [makes?, stage]
      rw [none_new, judge, failWith_exchange]
      exact .inl ⟨rfl, rfl, session⟩

theorem leaves_step (h : Hub) (leaves : x.Leaves keys late) :
    (x.step c h).2.Leaves (keys ++ (x.makes? h .step).toList) late := by
  obtain ⟨request, response, completion, stage⟩ := x
  cases stage with
  | arrived =>
      obtain ⟨none_made, unspent⟩ := leaves
      rw [makes?, Option.toList_none, List.append_nil, step]
      dsimp only
      cases c.resolve request.path with
      | none => exact .inl none_made
      | some taken => exact ⟨none_made, unspent⟩
  | creating matched acts finish =>
      obtain ⟨none_made, unspent⟩ := leaves
      rw [makes?, Option.toList_none, List.append_nil]
      cases acts with
      | nil => exact ⟨none_made, unspent⟩
      | cons a rest => exact leaves_perform h matched rest finish a rfl none_made unspent
  | calling matched calls acts finish =>
      rw [makes?, Option.toList_none, List.append_nil]
      cases calls with
      | nil | cons => exact leaves
  | created matched finish =>
      obtain ⟨none_made, unspent⟩ := leaves
      exact leaves_judge h matched finish rfl none_made unspent
  | opening key calls =>
      obtain ⟨one, session, follows⟩ := leaves
      rw [makes?, Option.toList_none, List.append_nil]
      cases calls with
      | nil =>
          simp only [step, conclude, fire_exchange]
          exact .inr ⟨key, one, rfl, follows.settle .succeeded⟩
      | cons call calls => exact ⟨one, session, follows⟩
  | finished handled =>
      rw [makes?, Option.toList_none, List.append_nil]
      exact leaves
  | dropped =>
      rw [makes?, Option.toList_none, List.append_nil]
      exact leaves

theorem leaves_abandon (h : Hub) (leaves : x.Leaves keys late) :
    (x.abandon h).2.Leaves keys late := by
  obtain ⟨request, response, completion, stage⟩ := x
  cases stage with
  | arrived => exact leaves.1
  | creating matched acts finish =>
      by_cases completed : completion.isCompleted = true
      · simp only [abandon, if_pos completed]
        exact leaves.1
      · simp only [abandon, if_neg completed, fire_exchange]
        exact leaves.1
  | calling | created | opening | finished | dropped => exact leaves

theorem leaves_report (h : Hub) (leaves : x.Leaves keys late) (o : Outcome) :
    (x.fire h o).2.1.Leaves keys (late ++ (x.late? (.report o)).toList) := by
  rw [fire_exchange]
  obtain ⟨request, response, completion, stage⟩ := x
  cases stage with
  | arrived | creating | calling | created =>
      rw [late?, Option.toList_none, List.append_nil]
      exact ⟨leaves.1, armed_fire completion o⟩
  | opening key calls => exact ⟨leaves.1, leaves.2.1, leaves.2.2.fire o⟩
  | finished handled =>
      rw [late?, Option.toList_none, List.append_nil]
      rcases leaves with none_made | ⟨key, one, session, settled⟩
      · exact .inl none_made
      · have same : (completion.fire o).1 = completion := settled.fire o
        simp only [same]
        exact .inr ⟨key, one, session, settled⟩
  | dropped =>
      rw [late?, Option.toList_none, List.append_nil]
      exact leaves

theorem leaves_turn (h : Hub) (leaves : x.Leaves keys late) (t : Turn) :
    (x.turn c h t).2.Leaves (keys ++ (x.makes? h t).toList) (late ++ (x.late? t).toList) := by
  cases t with
  | step =>
      rw [late?, Option.toList_none, List.append_nil]
      exact leaves_step h leaves
  | drop =>
      rw [makes?, late?, Option.toList_none, Option.toList_none, List.append_nil, List.append_nil]
      exact leaves_abandon h leaves
  | report o =>
      rw [makes?, Option.toList_none, List.append_nil]
      exact leaves_report h leaves o
  | elsewhere f =>
      rw [makes?, late?, Option.toList_none, Option.toList_none, List.append_nil, List.append_nil]
      exact leaves

theorem leaves_play (h : Hub) (leaves : x.Leaves keys late) (turns : List Turn) :
    (x.play c h turns).2.Leaves (keys ++ x.made c h turns) (late ++ x.lateReports c h turns) := by
  induction turns generalizing h x keys late with
  | nil => rwa [play, made, lateReports, List.append_nil, List.append_nil]
  | cons t rest ih =>
      rw [play, made, lateReports, ← List.append_assoc, ← List.append_assoc]
      exact ih (x.turn c h t).1 (leaves_turn h leaves t)

/-- An exchange that has ended has made no session, or it has made one and completed with what was
reported first while that session was being opened, or else with success. So if no failure was
reported then, one that has failed has made no session and hands none over. -/
theorem failed_leaves_no_session (c : Container) (h : Hub) (turns : List Turn)
    (arrived : x.stage = .arrived) (uncalled : x.completion.calls = [])
    (empty : x.response.session = none)
    (ended : (x.play c h turns).2.hasEnded = true) :
    let x' := (x.play c h turns).2
    (x.made c h turns = [] ∧ x'.response.session = none
        ∨ ∃ key, x.made c h turns = [key] ∧ x'.response.session = some key
          ∧ x'.completion.calls = [(x.lateReports c h turns).head?.getD .succeeded])
      ∧ ((∀ o ∈ x.lateReports c h turns, o = .succeeded) →
        ∀ e, x'.completion.calls = [.failed e] →
          x.made c h turns = [] ∧ x'.response.session = none) := by
  intro x'
  have start : x.Leaves [] [] := by
    rw [Leaves, arrived]
    exact ⟨⟨rfl, rfl, empty⟩, fun _ => uncalled⟩
  have leaves := leaves_play h start turns (c := c)
  rw [List.nil_append, List.nil_append] at leaves
  have account : x.made c h turns = [] ∧ x'.response.session = none
      ∨ ∃ key, x.made c h turns = [key] ∧ x'.response.session = some key
        ∧ x'.completion.calls = [(x.lateReports c h turns).head?.getD .succeeded] := by
    change x'.Leaves _ _ at leaves
    change x'.hasEnded = true at ended
    generalize x' = y at leaves ended ⊢
    obtain ⟨request, response, completion, stage⟩ := y
    cases stage with
    | finished handled =>
        rcases leaves with ⟨none_made, -, session⟩ | ⟨key, one, session, settled⟩
        · exact .inl ⟨none_made, session⟩
        · exact .inr ⟨key, one, session, settled.1⟩
    | dropped => exact .inl ⟨leaves.1, leaves.2.2⟩
    | arrived | creating | calling | created | opening => exact absurd ended Bool.false_ne_true
  refine ⟨account, ?_⟩
  intro no_failure e failed
  rcases account with none_made | ⟨key, -, -, completed⟩
  · exact none_made
  · rw [completed] at failed
    cases first : (x.lateReports c h turns).head? with
    | none =>
        rw [first] at failed
        exact absurd failed (by simp)
    | some o =>
        rw [first, no_failure o (List.mem_of_head? first)] at failed
        exact absurd failed (by simp)

def withOneMapping (creator : Creator) : Container where
  negotiators := ⟨[(.default, ⟨.default, creator, {}⟩)]⟩

/-- A creator that reports a failure and then returns an endpoint. -/
theorem failed_leaves_no_session_by_creator :
    let failing : Creator := fun _ =>
      { acts := [.fire (.failed .cancelled) true], finish := .accept .echo };
    let c := withOneMapping failing;
    let x : Exchange := { request := { path := "/a" } };
    let turns : List Turn := [.step, .step, .step, .step];
    (x.play c {} turns).2.completion.calls = [.failed .cancelled]
      ∧ x.made c {} turns = [] ∧ (x.play c {} turns).2.response.session = none := by
  intro failing c x turns
  obtain ⟨-, clean⟩ := failed_leaves_no_session (x := x) c {} turns rfl rfl rfl rfl
  have none_late : x.lateReports c {} turns = [] := rfl
  exact ⟨rfl, clean (by rw [none_late]; nofun) .cancelled rfl⟩

/-- A failure that is reported once the session is live: the exchange has failed, and the session
is open, live and handed over. -/
theorem failed_with_session_left :
    let accepting : Creator := fun _ => { finish := .accept .echo };
    let c := withOneMapping accepting;
    let x : Exchange := { request := { path := "/a" } };
    let turns : List Turn := [.step, .step, .step, .step, .step, .report (.failed .cancelled),
      .step, .step, .step, .step];
    let (h, x') := x.play c {} turns;
    x'.stage = .finished true ∧ x'.completion.calls = [.failed .cancelled]
      ∧ x'.response.session = some 0 ∧ h.registry.live = [0] ∧ h.phase 0 = .opened :=
  ⟨rfl, rfl, rfl, rfl, rfl⟩

end Gateway.Upgrade.Exchange
