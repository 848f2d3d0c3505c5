import Gateway.Proofs.Hub.Frame
import Gateway.Proofs.Hub.Tasks
import Gateway.Hub.Run

/-!
A task on its own. Its steps come one after the other, those of an inner call before those of the
call that made it, so two lists of calls run like one. Whatever is called, by whatever listener, a
session's phase only moves forward and a wish to close is never taken back.
-/
namespace Gateway

inductive Session.Phase.Moves : Session.Phase → Session.Phase → Prop
  | stays (p : Session.Phase) : Moves p p
  | opens : Moves .created .opened
  | closes : Moves .opened .closed
  | ends : Moves .created .closed

open Session (Phase)

theorem Session.Phase.Moves.trans {p q r : Phase} (first : p.Moves q) (second : q.Moves r) :
    p.Moves r := by
  cases first with
  | stays => exact second
  | opens =>
      cases second with
      | stays => exact .opens
      | closes => exact .ends
  | closes =>
      cases second with
      | stays => exact .closes
  | ends =>
      cases second with
      | stays => exact .ends

theorem Session.Phase.Moves.old {p q : Phase} (moves : p.Moves q) (old : p ≠ .created) :
    q ≠ .created := by
  rintro rfl
  cases moves with
  | stays => exact old rfl

theorem Session.Phase.Moves.closed {p q : Phase} (moves : p.Moves q) (closed : p = .closed) :
    q = .closed := by
  subst closed
  cases moves with
  | stays => rfl

/-- A session that has not gone back, and is still to be closed if it was. -/
structure Session.Forward (s t : Session) : Prop where
  moves : s.phase.Moves t.phase
  asked : s.closeRequested = true → t.closeRequested = true

namespace Session.Forward

variable (s : Session)

theorem refl : Forward s s := ⟨.stays _, fun wish => wish⟩

theorem requestClose : Forward s s.requestClose := ⟨.stays _, fun _ => rfl⟩

theorem markOpen : Forward s s.markOpen.1 := by
  rw [Session.markOpen]
  cases now : s.phase with
  | created => exact ⟨by rw [now]; exact .opens, fun wish => wish⟩
  | opened | closed => exact refl s

theorem markClosed : Forward s s.markClosed.1 := by
  refine ⟨?_, fun wish => wish⟩
  change s.phase.Moves .closed
  cases s.phase with
  | created => exact .ends
  | opened => exact .closes
  | closed => exact .stays _

theorem send (m : Message) : Forward s (s.send m).1 := by
  rw [Session.send]
  cases s.sendError? m with
  | none => exact ⟨.stays _, fun wish => wish⟩
  | some => exact refl s

theorem takeQueue : Forward s (if s.takeQueue.2 then s.dropQueue else s) := by
  rw [Session.takeQueue]
  cases s.holder with
  | session => exact ⟨.stays _, fun wish => wish⟩
  | writer | nobody => exact refl s

end Session.Forward

namespace Hub

/-! ### Runs -/

/-- The steps of a task on its own, each with the hub it finds. -/
def steps (h : Hub) : List Call → List (Hub × Call)
  | [] => []
  | c :: rest => (h, c) :: (c.step h).1.steps ((c.step h).2 ++ rest)
termination_by calls => h.measure calls
decreasing_by exact measure_step h c rest

theorem run_nil (h : Hub) : h.run [] = h := by rw [run]

theorem run_cons (h : Hub) (c : Call) (rest : List Call) :
    h.run (c :: rest) = (c.step h).1.run ((c.step h).2 ++ rest) := by rw [run]

theorem steps_nil (h : Hub) : h.steps [] = [] := by rw [steps]

theorem steps_cons (h : Hub) (c : Call) (rest : List Call) :
    h.steps (c :: rest) = (h, c) :: (c.step h).1.steps ((c.step h).2 ++ rest) := by rw [steps]

theorem run_append (h : Hub) (calls more : List Call) :
    h.run (calls ++ more) = (h.run calls).run more := by
  induction h, calls using Hub.run.induct with
  | case1 h => rw [run_nil, List.nil_append]
  | case2 h c rest ih => rw [List.cons_append, run_cons, run_cons, ← List.append_assoc, ih]

theorem steps_append (h : Hub) (calls more : List Call) :
    h.steps (calls ++ more) = h.steps calls ++ (h.run calls).steps more := by
  induction h, calls using Hub.run.induct with
  | case1 h => rw [run_nil, steps_nil, List.nil_append, List.nil_append]
  | case2 h c rest ih =>
      rw [List.cons_append, steps_cons, steps_cons, run_cons, ← List.append_assoc, ih]
      rfl

theorem run_of_returned {h : Hub} {calls : List Call} {n : Nat}
    (returned : (h.interleave [calls] (.replicate n 0)).2 = [[]]) :
    h.run calls = (h.interleave [calls] (.replicate n 0)).1
      ∧ h.steps calls = h.history [calls] (.replicate n 0) := by
  induction n generalizing h calls with
  | zero =>
      obtain rfl : calls = [] := (List.cons.inj returned).1
      exact ⟨run_nil h, steps_nil h⟩
  | succ n ih =>
      rw [List.replicate_succ, interleave] at returned ⊢
      rw [history]
      cases calls with
      | nil => exact ih returned
      | cons c rest =>
          obtain ⟨ran, stepped⟩ := ih returned
          rw [run_cons, steps_cons]
          exact ⟨ran, congrArg _ stepped⟩

/-! ### Forward only -/

def asked (h : Hub) (key : SessionKey) : Prop :=
  ∃ s, h.session? key = some s ∧ s.closeRequested = true

structure Later (h k : Hub) : Prop where
  phase : ∀ key, (h.phase key).Moves (k.phase key)
  asked : ∀ key, h.asked key → k.asked key

theorem Later.trans {h k l : Hub} (first : Later h k) (second : Later k l) : Later h l where
  phase key := (first.phase key).trans (second.phase key)
  asked key wish := second.asked key (first.asked key wish)

theorem later_of_sessions {h k : Hub} (same : k.sessions = h.sessions) : Later h k where
  phase key := by
    rw [phase_of_sessions same]
    exact .stays _
  asked key wish := by
    rw [Hub.asked, session?, same]
    exact wish

theorem later_modify (h : Hub) (key : SessionKey) {f : Session → Session}
    (forward : ∀ s : Session, s.Forward (f s)) : Later h (h.modify key f) := by
  have elsewhere (other : SessionKey) (ne : key ≠ other) :
      (h.modify key f).session? other = h.session? other := by rw [session?_modify, if_neg ne]
  have here : (h.modify key f).session? key = (h.session? key).map f := by
    rw [session?_modify, if_pos rfl]
  constructor
  · intro other
    by_cases same : key = other
    · subst same
      rw [phase, phase, here]
      cases h.session? key with
      | none => exact .stays _
      | some s => exact (forward s).moves
    · rw [phase, phase, elsewhere other same]
      exact .stays _
  · rintro other ⟨s, found, wish⟩
    by_cases same : key = other
    · subst same
      exact ⟨f s, by rw [here, found]; rfl, (forward s).asked wish⟩
    · exact ⟨s, by rw [elsewhere other same, found], wish⟩

theorem later_send (h : Hub) (key : SessionKey) (m : Session.Message) :
    Later h (h.send key m).1 := by
  rw [send]
  cases h.session? key with
  | none => exact later_of_sessions rfl
  | some s =>
      dsimp only
      split
      · exact later_of_sessions rfl
      · exact later_of_sessions rfl
      · exact later_modify h key fun s => .send s m

theorem later_react (h : Hub) (key : SessionKey) (r : Session.Reaction) :
    Later h (h.react key r).1 := by
  cases r with
  | succeed | fail | panic | waver | closeSession | openSession | closeAll | dismiss =>
      exact later_of_sessions rfl
  | takeQueue other => exact later_modify h (other.getD key) .takeQueue
  | requestClose other => exact later_modify h (other.getD key) .requestClose
  | send other s =>
      have sent := later_send h (other.getD key) (.text s)
      rw [react]
      generalize h.send (other.getD key) (.text s) = result at sent ⊢
      obtain ⟨k, outcome⟩ := result
      cases outcome with
      | ok | error => exact sent
  | enlist name =>
      rw [react]
      cases h.listener? name with
      | none | some => exact later_of_sessions rfl

theorem later_tell (h : Hub) (l : Session.Listener) (key : SessionKey) (event : Session.Event)
    (index : Nat) : Later h (h.tell l key event index).1 := by
  have heard := later_of_sessions (hear_frame h l key event).1
  have reacted := heard.trans (later_react (h.hear l key event) key (l.reaction event.kind))
  rw [tell]
  generalize (h.hear l key event).react key (l.reaction event.kind) = reaction at reacted ⊢
  obtain ⟨k, cause⟩ := reaction
  cases cause with
  | none => exact reacted
  | some cause => exact reacted.trans (later_of_sessions rfl)

theorem later_step (h : Hub) (c : Call) : Later h (c.step h).1 := by
  cases c with
  | openSession key =>
      rw [Call.step]
      cases h.phase key with
      | created => exact later_modify h key .markOpen
      | opened | closed => exact later_of_sessions rfl
  | finishClose key removed =>
      exact later_modify h key .markClosed
  | deliver key event index rest faults =>
      cases rest with
      | nil => exact later_of_sessions rfl
      | cons l rest => exact later_tell h l key event index
  | closeEach count keys =>
      cases keys with
      | nil =>
          rw [Call.step]
          split
          · exact later_of_sessions rfl
          · exact later_of_sessions rfl
      | cons key keys => exact later_modify h key .requestClose
  | goLive | closeSession | announce | report | notify | closeAll => exact later_of_sessions rfl

/-- Every run only moves forward. -/
theorem later_run (h : Hub) (calls : List Call) : Later h (h.run calls) := by
  induction h, calls using Hub.run.induct with
  | case1 h =>
      rw [run_nil]
      exact later_of_sessions rfl
  | case2 h c rest ih =>
      rw [run_cons]
      exact (later_step h c).trans ih

end Hub
end Gateway
