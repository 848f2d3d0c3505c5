import Gateway.Upgrade.Exchange

/-!
Running an exchange on its own, until it ends or stalls. Every step lowers the measure: stages
only go forward, acts and calls are used up.
-/
namespace Gateway.Upgrade.Exchange

/-- A judged exchange has ended, or opens its session. -/
theorem stage_judge (h : Hub) (x : Exchange) (matched : Path.Match) (finish : Finish) :
    (x.judge h matched finish).2.stage = .finished true
      ∨ ∃ key, (x.judge h matched finish).2.stage = .opening key [.openSession key] := by
  cases finish with
  | accept endpoint =>
    simp only [judge]
    split
    · exact .inl rfl
    · exact .inr ⟨h.nextKey, rfl⟩
  | decline =>
    simp only [judge]
    split <;> exact .inl rfl
  | fail e => exact .inl rfl
  | panic payload => exact .inl rfl

/-- An act leaves the acts after it, perhaps behind a call, or the creator's failure. -/
theorem stage_perform (h : Hub) (x : Exchange) (matched : Path.Match) (rest : List CreatorAct)
    (finish : Finish) (a : CreatorAct) (hx : x.stage = .creating matched (a :: rest) finish)
    (ha : x.isStalled = false) :
    (x.perform h matched rest finish a).2.stage = .creating matched rest finish
      ∨ (∃ calls, (x.perform h matched rest finish a).2.stage = .calling matched calls rest finish)
      ∨ (x.perform h matched rest finish a).2.stage
          = .created matched (.fail .alreadyCompleted) := by
  cases a with
  | fire o lenient =>
    simp only [perform]
    split
    · exact .inl rfl
    · exact .inr (.inr rfl)
  | call c entry => exact .inr (.inl ⟨[c], rfl⟩)
  | stall => simp [isStalled, hx] at ha
  | _ => exact .inl rfl

abbrev Below : Nat × Nat × Nat × Nat × Nat → Nat × Nat × Nat × Nat × Nat → Prop :=
  Prod.Lex (· < ·) (Prod.Lex (· < ·) (Prod.Lex (· < ·) (Prod.Lex (· < ·) (· < ·))))

theorem step_lowers (c : Container) (h : Hub) (x : Exchange) (ended : x.hasEnded = false)
    (stalled : x.isStalled = false) :
    Below ((x.step c h).2.measure (x.step c h).1) (x.measure h) := by
  obtain ⟨request, response, completion, stage⟩ := x
  cases stage with
  | arrived =>
    simp only [step]
    split
    · exact .left _ _ (by decide)
    · exact .left _ _ (by decide)
  | creating matched acts finish =>
    cases acts with
    | nil => exact .left _ _ (by decide)
    | cons a rest =>
      simp only [step]
      obtain eq | ⟨calls, eq⟩ | eq := stage_perform h _ matched rest finish a rfl stalled
      · simp only [measure, eq]
        exact .right _ (.left _ _ (by simp))
      · simp only [measure, eq]
        exact .right _ (.left _ _ (by simp; omega))
      · simp only [measure, eq]
        exact .left _ _ (by decide)
  | calling matched calls acts finish =>
    cases calls with
    | nil => exact .right _ (.left _ _ (Nat.lt_succ_self _))
    | cons call calls => exact .right _ (.right _ (Hub.measure_step h call calls))
  | created matched finish =>
    simp only [step]
    obtain eq | ⟨key, eq⟩ :=
      stage_judge h ⟨request, response, completion, .created matched finish⟩ matched finish
    all_goals
      simp only [measure, eq]
      exact .left _ _ (by decide)
  | opening key calls =>
    cases calls with
    | nil =>
      simp only [step]
      exact .left _ _ (by decide)
    | cons call calls => exact .right _ (.right _ (Hub.measure_step h call calls))
  | finished handled => simp [hasEnded] at ended
  | dropped => simp [hasEnded] at ended

/-- Goes on until the exchange ends or stalls, with no other task in between. -/
def run (c : Container) (h : Hub) (x : Exchange) : Hub × Exchange :=
  if ended : x.hasEnded = true then (h, x)
  else if stalled : x.isStalled = true then (h, x)
  else
    have := step_lowers c h x (by simpa using ended) (by simpa using stalled)
    (x.step c h).2.run c (x.step c h).1
termination_by x.measure h
decreasing_by assumption

end Gateway.Upgrade.Exchange
