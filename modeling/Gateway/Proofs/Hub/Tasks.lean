import Gateway.Hub.Call

/-!
Tasks side by side. A schedule names the task that does each next step; whatever every step keeps,
every schedule keeps.
-/
namespace Gateway.Hub

/-- One step of the task at a place. A task that has returned does nothing. -/
def stepTask (h : Hub) (tasks : List (List Call)) (i : Nat) : Hub × List (List Call) :=
  match tasks[i]? with
  | some (c :: rest) => ((c.step h).1, tasks.set i ((c.step h).2 ++ rest))
  | _ => (h, tasks)

def nextCall (h : Hub) (tasks : List (List Call)) (i : Nat) : List (Hub × Call) :=
  match tasks[i]? with
  | some (c :: _) => [(h, c)]
  | _ => []

def interleave (h : Hub) (tasks : List (List Call)) : List Nat → Hub × List (List Call)
  | [] => (h, tasks)
  | i :: rest => (h.stepTask tasks i).1.interleave (h.stepTask tasks i).2 rest

/-- The calls that are stepped under a schedule, each with the hub it finds. -/
def history (h : Hub) (tasks : List (List Call)) : List Nat → List (Hub × Call)
  | [] => []
  | i :: rest =>
    h.nextCall tasks i ++ (h.stepTask tasks i).1.history (h.stepTask tasks i).2 rest

def trace {α : Type} (read : Hub → Call → Option α) (past : List (Hub × Call)) : List α :=
  past.filterMap fun step => read step.1 step.2

theorem trace_snoc {α : Type} (read : Hub → Call → Option α) (past : List (Hub × Call)) (h : Hub)
    (c : Call) : trace read (past ++ [(h, c)]) = trace read past ++ (read h c).toList := by
  rw [trace, List.filterMap_append, trace]
  cases now : read h c with
  | none => simp [now]
  | some a => simp [now]

theorem stepTask_cases (h : Hub) (tasks : List (List Call)) (i : Nat) :
    h.stepTask tasks i = (h, tasks) ∧ h.nextCall tasks i = []
      ∨ ∃ before c after, tasks.flatten = before ++ c :: after
        ∧ h.nextCall tasks i = [(h, c)] ∧ (h.stepTask tasks i).1 = (c.step h).1
        ∧ (h.stepTask tasks i).2.flatten = before ++ (c.step h).2 ++ after := by
  rw [stepTask, nextCall]
  cases at_i : tasks[i]? with
  | none => exact .inl ⟨rfl, rfl⟩
  | some task =>
      cases task with
      | nil => exact .inl ⟨rfl, rfl⟩
      | cons c rest =>
          refine .inr ⟨(tasks.take i).flatten, c, rest ++ (tasks.drop (i + 1)).flatten, ?_, rfl,
            rfl, ?_⟩
          · obtain ⟨within, same⟩ := List.getElem?_eq_some_iff.mp at_i
            have split : tasks = tasks.take i ++ (c :: rest) :: tasks.drop (i + 1) := by
              rw [← same, List.getElem_cons_drop, List.take_append_drop]
            rw [congrArg List.flatten split, List.flatten_append, List.flatten_cons]
            rfl
          · have within : i < tasks.length := (List.getElem?_eq_some_iff.mp at_i).1
            have put : tasks.set i ((c.step h).2 ++ rest)
                = tasks.take i ++ ((c.step h).2 ++ rest) :: tasks.drop (i + 1) := by
              rw [List.set_eq_take_append_cons_drop, if_pos within]
            apply (congrArg List.flatten put).trans
            rw [List.flatten_append, List.flatten_cons, List.append_assoc, List.append_assoc]

/-- A property of the hub, the calls left and the calls past that every step keeps. -/
theorem interleave_keeps {Inv : Hub → List Call → List (Hub × Call) → Prop}
    (step : ∀ h before c after past, Inv h (before ++ c :: after) past →
      Inv (c.step h).1 (before ++ (c.step h).2 ++ after) (past ++ [(h, c)]))
    {h : Hub} {tasks : List (List Call)} {past : List (Hub × Call)}
    (start : Inv h tasks.flatten past) (schedule : List Nat) :
    Inv (h.interleave tasks schedule).1 (h.interleave tasks schedule).2.flatten
      (past ++ h.history tasks schedule) := by
  induction schedule generalizing h tasks past with
  | nil =>
      rw [interleave, history, List.append_nil]
      exact start
  | cons i rest ih =>
      rw [interleave, history, ← List.append_assoc]
      apply ih
      rcases stepTask_cases h tasks i with
        ⟨still, silent⟩ | ⟨before, c, after, split, now, hub, left⟩
      · rw [still, silent, List.append_nil]
        exact start
      · rw [now, hub, left]
        rw [split] at start
        exact step h before c after past start

theorem exists_take {h : Hub} {tasks : List (List Call)} {schedule : List Nat}
    {past : List (Hub × Call)} (first : past <+: h.history tasks schedule) :
    ∃ n, h.history tasks (schedule.take n) = past := by
  induction schedule generalizing h tasks past with
  | nil => exact ⟨0, (List.prefix_nil.mp first).symm⟩
  | cons i rest ih =>
      rw [history] at first
      rcases stepTask_cases h tasks i with ⟨still, silent⟩ | ⟨before, c, after, -, now, -, -⟩
      · rw [silent, List.nil_append, still] at first
        obtain ⟨n, same⟩ := ih first
        refine ⟨n + 1, ?_⟩
        rw [List.take_succ_cons, history, silent, still, same, List.nil_append]
      · cases past with
        | nil => exact ⟨0, rfl⟩
        | cons earliest past =>
            rw [now, List.singleton_append, List.cons_prefix_cons] at first
            obtain ⟨rfl, later⟩ := first
            obtain ⟨n, same⟩ := ih later
            refine ⟨n + 1, ?_⟩
            rw [List.take_succ_cons, history, now, same, List.singleton_append]

theorem history_take_first (h : Hub) (tasks : List (List Call)) (schedule : List Nat) (n : Nat) :
    h.history tasks (schedule.take n) <+: h.history tasks schedule := by
  induction schedule generalizing h tasks n with
  | nil => simp
  | cons i rest ih =>
      cases n with
      | zero => exact List.nil_prefix
      | succ n =>
          rw [List.take_succ_cons, history, history]
          exact (List.prefix_append_right_inj _).mpr (ih _ _ n)

end Gateway.Hub
