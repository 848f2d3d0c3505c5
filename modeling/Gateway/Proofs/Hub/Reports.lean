import Gateway.Proofs.Hub.Hearing
import Gateway.Proofs.Hub.Sessions

/-!
Errors on their way to the listeners, in one task. Each error that the task is to report reads the
list of listeners once, and each listener on the list is told once, one report after the other.
-/
namespace Gateway

structure Report where
  key : SessionKey
  error : Session.Error
  listeners : List Session.Listener

namespace Report

def subject (r : Report) : SessionKey × Session.Error := (r.key, r.error)

def tellings (r : Report) : List ((SessionKey × Session.Error) × Session.Listener) :=
  r.listeners.map (r.subject, ·)

end Report

def Hearing.error? (x : Hearing) : Option ((SessionKey × Session.Error) × Session.Listener) :=
  match x.event with
  | .failed e => some ((x.key, e), x.listener)
  | .opened | .closed => none

namespace Call

def reports? : Call → Option (SessionKey × Session.Error)
  | .report key e | .announce key (.failed e) | .notify key (.failed e) => some (key, e)
  | _ => none

def begins? (h : Hub) : Call → Option Report
  | .notify key (.failed e) => some ⟨key, e, h.registry.listeners⟩
  | _ => none

def tellsError? (h : Hub) (c : Call) : Option ((SessionKey × Session.Error) × Session.Listener) :=
  (c.hearing? h).bind Hearing.error?

def untold : Call → List ((SessionKey × Session.Error) × Session.Listener)
  | .deliver key (.failed e) _ rest _ => rest.map ((key, e), ·)
  | _ => []

end Call

namespace Hub

/-- What one step of a call does to the reports at hand. -/
structure ReportStep (h : Hub) (c : Call) (more : List Call) : Prop where
  subjects : (c.begins? h).toList.map Report.subject ++ more.filterMap Call.reports?
    = c.reports?.toList
  told : (c.tellsError? h).toList ++ more.flatMap Call.untold
    = c.untold ++ (c.begins? h).toList.flatMap Report.tellings
  inTurn : more.Pairwise fun m m' => m.reports? ≠ none → m'.untold = []
  same : ∀ m ∈ more, m.reports? ≠ none → c.reports? ≠ none

variable {h : Hub} {c m : Call}

theorem quiet_of_left (left : Left h c m) (silent : c.reports? = none) (told : c.untold = []) :
    m.reports? = none ∧ m.untold = [] := by
  cases left with
  | @announced _ event | @read _ event =>
      cases event with
      | opened | closed => exact ⟨rfl, rfl⟩
      | failed e => exact absurd silent (by simp [Call.reports?])
  | reported => exact absurd silent (by simp [Call.reports?])
  | @told _ event =>
      cases event with
      | opened | closed => exact ⟨rfl, rfl⟩
      | failed e => exact absurd told (by simp [Call.untold])
  | opening | opened | closing | closed | reopens | recloses | resweeps | all | one | others =>
      exact ⟨rfl, rfl⟩

theorem reportStep_of_quiet (silent : c.reports? = none) (told : c.untold = []) :
    ReportStep h c (c.step h).2 := by
  have quiet (m : Call) (among : m ∈ (c.step h).2) :=
    quiet_of_left (left_of_step h c m among) silent told
  have begins : c.begins? h = none := by
    cases c with
    | notify key event =>
        cases event with
        | opened | closed => rfl
        | failed e => exact absurd silent (by simp [Call.reports?])
    | _ => rfl
  have tells : c.tellsError? h = none := by
    cases c with
    | deliver key event index rest faults =>
        cases rest with
        | nil => rfl
        | cons l rest =>
            cases event with
            | opened | closed => rfl
            | failed e => exact absurd told (by simp [Call.untold])
    | _ => rfl
  have none_left : (c.step h).2.filterMap Call.reports? = [] :=
    List.filterMap_eq_nil_iff.mpr fun m among => (quiet m among).1
  have all_told : (c.step h).2.flatMap Call.untold = [] :=
    List.flatMap_eq_nil_iff.mpr fun m among => (quiet m among).2
  refine ⟨by rw [begins, silent, none_left]; rfl, by rw [begins, tells, told, all_told]; rfl, ?_,
    fun m among some => absurd (quiet m among).1 some⟩
  refine List.pairwise_of_forall_mem_list ?_
  intro m _ m' among _
  exact (quiet m' among).2

theorem reportStep_deliver (h : Hub) (key : SessionKey) (e : Session.Error) (index : Nat)
    (l : Session.Listener) (rest : List Session.Listener) (faults : List Session.Fault) :
    ReportStep h (.deliver key (.failed e) index (l :: rest) faults)
      (Call.step h (.deliver key (.failed e) index (l :: rest) faults)).2 := by
  rw [Call.step]
  generalize h.tell l key (.failed e) index = result
  obtain ⟨k, fault⟩ := result
  dsimp only
  generalize called : (l.reaction (Session.Event.failed e).kind).calls key = calls
  -- What the listener calls from inside has to do with no error.
  have quiet : ∀ m ∈ calls, m.reports? = none ∧ m.untold = [] := by
    intro m among
    rcases Session.Reaction.mem_calls (called ▸ among) with ⟨_, rfl⟩ | ⟨_, rfl⟩ | ⟨_, rfl⟩
    · exact ⟨rfl, rfl⟩
    · exact ⟨rfl, rfl⟩
    · exact ⟨rfl, rfl⟩
  have silent : calls.filterMap Call.reports? = [] :=
    List.filterMap_eq_nil_iff.mpr fun m among => (quiet m among).1
  have told : calls.flatMap Call.untold = [] :=
    List.flatMap_eq_nil_iff.mpr fun m among => (quiet m among).2
  refine ⟨?_, ?_, ?_, ?_⟩
  · rw [List.filterMap_append, silent]
    rfl
  · rw [List.flatMap_append, told]
    simp [Call.tellsError?, Call.hearing?, Hearing.error?, Call.untold, Call.begins?]
  · refine List.pairwise_append.mpr ⟨?_, List.pairwise_singleton _ _, ?_⟩
    · exact List.pairwise_of_forall_mem_list fun m among _ _ some =>
        absurd (quiet m among).1 some
    · exact fun m among _ _ some => absurd (quiet m among).1 some
  · intro m among some
    rcases List.mem_append.mp among with called | goes_on
    · exact absurd (quiet m called).1 some
    · rw [List.mem_singleton.mp goes_on] at some
      exact absurd rfl some

theorem reports_step (h : Hub) (c : Call) : ReportStep h c (c.step h).2 := by
  have goes_on {m d : Call} (reports : d.reports? ≠ none) :
      ∀ m' ∈ [m], m'.reports? ≠ none → d.reports? ≠ none := fun _ _ _ => reports
  cases c with
  | report key e =>
      exact ⟨rfl, rfl, List.pairwise_singleton _ _, goes_on (by simp [Call.reports?])⟩
  | announce key event =>
      cases event with
      | opened | closed => exact reportStep_of_quiet rfl rfl
      | failed e =>
          exact ⟨rfl, rfl, List.pairwise_singleton _ _, goes_on (by simp [Call.reports?])⟩
  | notify key event =>
      cases event with
      | opened | closed => exact reportStep_of_quiet rfl rfl
      | failed e =>
          refine ⟨rfl, ?_, List.pairwise_singleton _ _, goes_on (by simp [Call.reports?])⟩
          simp [Call.step, Call.tellsError?, Call.hearing?, Call.untold, Call.begins?,
            Report.tellings, Report.subject]
  | deliver key event index rest faults =>
      cases event with
      | opened | closed => exact reportStep_of_quiet rfl rfl
      | failed e =>
          cases rest with
          | nil => exact reportStep_of_quiet rfl rfl
          | cons l rest => exact reportStep_deliver h key e index l rest faults
  | openSession | goLive | closeSession | finishClose | closeAll | closeEach =>
      exact reportStep_of_quiet rfl rfl

/-! ### A task's past -/

def reports (past : List (Hub × Call)) : List Report := trace Call.begins? past

/-- Who has been told of which error, oldest first. -/
def errorsTold (past : List (Hub × Call)) :
    List ((SessionKey × Session.Error) × Session.Listener) :=
  (heardIn past).filterMap Hearing.error?

theorem errorsTold_snoc (past : List (Hub × Call)) (h : Hub) (c : Call) :
    errorsTold (past ++ [(h, c)]) = errorsTold past ++ (c.tellsError? h).toList := by
  rw [errorsTold, heardIn_snoc, List.filterMap_append, ← errorsTold, Call.tellsError?]
  cases c.hearing? h with
  | none => rfl
  | some x =>
      cases error : x.error? with
      | none | some => simp [error]

/-- The reports that a task has begun and still has to, with those it has told. -/
structure Reporting (calls : List Call) (past : List (Hub × Call))
    (errors : List (SessionKey × Session.Error)) : Prop where
  announced : (reports past).map Report.subject ++ calls.filterMap Call.reports? = errors
  told : errorsTold past ++ calls.flatMap Call.untold = (reports past).flatMap Report.tellings
  inTurn : calls.Pairwise fun c d => c.reports? ≠ none → d.untold = []

variable {calls : List Call} {past : List (Hub × Call)} {errors : List (SessionKey × Session.Error)}

theorem Reporting.step {h : Hub} {c : Call} (reporting : Reporting (c :: calls) past errors) :
    Reporting ((c.step h).2 ++ calls) (past ++ [(h, c)]) errors := by
  obtain ⟨subjects, tells, turns, same⟩ := reports_step h c
  obtain ⟨announced, told, inTurn⟩ := reporting
  obtain ⟨first, inTurn⟩ := List.pairwise_cons.mp inTurn
  -- A report that begins now finds the one before it told to the end.
  have ordered : (c.begins? h).toList.flatMap Report.tellings ++ calls.flatMap Call.untold
      = calls.flatMap Call.untold ++ (c.begins? h).toList.flatMap Report.tellings := by
    by_cases begins : c.begins? h = none
    · simp [begins]
    · have reports : c.reports? ≠ none := by
        intro silent
        rw [silent, Option.toList_none, List.append_eq_nil_iff, List.map_eq_nil_iff] at subjects
        cases started : c.begins? h with
        | none => exact begins started
        | some r => rw [started] at subjects; exact absurd subjects.1 (by simp)
      have all_told : calls.flatMap Call.untold = [] :=
        List.flatMap_eq_nil_iff.mpr fun d among => first d among reports
      rw [all_told, List.append_nil, List.nil_append]
  refine ⟨?_, ?_, ?_⟩
  · calc (reports (past ++ [(h, c)])).map Report.subject
          ++ ((c.step h).2 ++ calls).filterMap Call.reports?
        = (reports past).map Report.subject ++ (((c.begins? h).toList.map Report.subject
            ++ (c.step h).2.filterMap Call.reports?) ++ calls.filterMap Call.reports?) := by
          rw [reports, trace_snoc, ← reports]
          simp
      _ = errors := by
          rw [subjects, ← announced, List.filterMap_cons]
          cases c.reports? with
          | none | some => rfl
  · calc errorsTold (past ++ [(h, c)]) ++ ((c.step h).2 ++ calls).flatMap Call.untold
        = errorsTold past ++ (((c.tellsError? h).toList ++ (c.step h).2.flatMap Call.untold)
            ++ calls.flatMap Call.untold) := by
          rw [errorsTold_snoc]
          simp
      _ = errorsTold past ++ (c.untold ++ (calls.flatMap Call.untold
            ++ (c.begins? h).toList.flatMap Report.tellings)) := by
          rw [tells, List.append_assoc, ordered]
      _ = (reports (past ++ [(h, c)])).flatMap Report.tellings := by
          rw [reports, trace_snoc, ← reports, List.flatMap_append, ← told]
          simp
  · refine List.pairwise_append.mpr ⟨turns, inTurn, ?_⟩
    exact fun m among d later some => first d later (same m among some)

theorem Reporting.more (reporting : Reporting [] past errors)
    (news : List (SessionKey × Session.Error)) :
    Reporting (news.map fun n => .report n.1 n.2) past (errors ++ news) := by
  have reported : (news.map fun n => Call.report n.1 n.2).filterMap Call.reports? = news := by
    induction news with
    | nil => rfl
    | cons n rest ih => rw [List.map_cons, List.filterMap_cons, ih]; rfl
  have silent : (news.map fun n => Call.report n.1 n.2).flatMap Call.untold = [] := by
    rw [List.flatMap_map]
    exact List.flatMap_eq_nil_iff.mpr fun n among => rfl
  obtain ⟨announced, told, -⟩ := reporting
  refine ⟨by rw [reported, ← announced]; simp, by rw [silent, ← told]; rfl, ?_⟩
  refine List.pairwise_map.mpr (List.pairwise_of_forall_mem_list ?_)
  exact fun n _ n' _ _ => rfl

end Hub
end Gateway
