import Gateway.Hub.Call

/-!
Running a task to its end. The measure is three numbers. The first counts the phase changes still
possible and the announcements not yet begun; only a phase change starts an announcement. The second
counts how often the live sessions can still be read, which a listener that is told can do once. The
third counts the steps of the calls at hand.
-/
namespace Gateway

def sumOver {α : Type} (g : α → Nat) : List α → Nat
  | [] => 0
  | a :: rest => g a + sumOver g rest

theorem sumOver_append {α : Type} (g : α → Nat) (l m : List α) :
    sumOver g (l ++ m) = sumOver g l + sumOver g m := by
  induction l with
  | nil => simp [sumOver]
  | cons a rest ih =>
    simp only [List.cons_append, sumOver, ih]
    omega

namespace Session

/-- How much a session can still change, two for each phase change. -/
def Phase.potential : Phase → Nat
  | .created => 4
  | .opened => 2
  | .closed => 0

end Session

namespace Call

/-- The calls that still have to read the list of listeners. -/
def unread : Call → Nat
  | .goLive _ | .announce _ _ | .report _ _ | .notify _ _ => 1
  | _ => 0

/-- How often a call can have the live sessions read, and one more for each listener, since telling
one uses something up. -/
def sweeps : Call → Nat
  | .deliver _ _ _ rest _ => 2 * rest.length
  | .closeAll _ => 1
  | _ => 0

/-- A bound for the steps of a call until it reads a list, changes a phase or tells a listener. -/
def size : Call → Nat
  | .openSession _ | .finishClose _ _ | .notify _ _ | .deliver _ _ _ _ _ | .closeAll _ => 1
  | .closeSession _ | .announce _ _ | .report _ _ => 2
  | .goLive _ => 3
  | .closeEach _ keys => 1 + 3 * keys.length

def unreadAll (calls : List Call) : Nat := sumOver unread calls

def sweepsAll (calls : List Call) : Nat := sumOver sweeps calls

def sizeAll (calls : List Call) : Nat := sumOver size calls

@[simp] theorem unreadAll_nil : unreadAll [] = 0 := rfl

@[simp] theorem unreadAll_cons (c : Call) (cs : List Call) :
    unreadAll (c :: cs) = c.unread + unreadAll cs := rfl

@[simp] theorem unreadAll_append (cs ds : List Call) :
    unreadAll (cs ++ ds) = unreadAll cs + unreadAll ds := sumOver_append unread cs ds

@[simp] theorem sweepsAll_nil : sweepsAll [] = 0 := rfl

@[simp] theorem sweepsAll_cons (c : Call) (cs : List Call) :
    sweepsAll (c :: cs) = c.sweeps + sweepsAll cs := rfl

@[simp] theorem sweepsAll_append (cs ds : List Call) :
    sweepsAll (cs ++ ds) = sweepsAll cs + sweepsAll ds := sumOver_append sweeps cs ds

@[simp] theorem sizeAll_nil : sizeAll [] = 0 := rfl

@[simp] theorem sizeAll_cons (c : Call) (cs : List Call) :
    sizeAll (c :: cs) = c.size + sizeAll cs := rfl

@[simp] theorem sizeAll_append (cs ds : List Call) :
    sizeAll (cs ++ ds) = sizeAll cs + sizeAll ds := sumOver_append size cs ds

/-- What a reaction calls begins no announcement of itself, and reads the live sessions once at
most. -/
theorem calls_bounds (key : SessionKey) (r : Session.Reaction) :
    unreadAll (r.calls key) = 0 ∧ sweepsAll (r.calls key) ≤ 1 := by
  cases r <;> simp [Session.Reaction.calls, unread, sweeps]

end Call

namespace Hub

def potential (h : Hub) : Nat := sumOver (fun s => s.phase.potential) h.sessions

@[simp] theorem sessions_note (h : Hub) (e : Entry) : (h.note e).sessions = h.sessions := rfl

@[simp] theorem sessions_log (h : Hub) (level : Log.Level) (message : String)
    (fields : List (String × Log.Value)) : (h.log level message fields).sessions = h.sessions :=
  rfl

theorem sum_modify_eq (f : Session → Session) (g : Session → Nat) (hf : ∀ s, g (f s) = g s)
    (l : List Session) (i : Nat) : sumOver g (l.modify i f) = sumOver g l := by
  induction l generalizing i with
  | nil => simp
  | cons s rest ih =>
    cases i with
    | zero => simp [sumOver, hf]
    | succ i => simp [sumOver, ih]

theorem sum_modify_add (f : Session → Session) (g : Session → Nat) (l : List Session) (i : Nat)
    (s : Session) (hs : l[i]? = some s) :
    sumOver g (l.modify i f) + g s = sumOver g l + g (f s) := by
  induction l generalizing i with
  | nil => simp at hs
  | cons t rest ih =>
    cases i with
    | zero =>
      simp only [List.getElem?_cons_zero, Option.some.injEq] at hs
      subst hs
      simp only [List.modify_zero_cons, sumOver]
      omega
    | succ i =>
      simp only [List.getElem?_cons_succ] at hs
      have := ih i hs
      simp only [List.modify_succ_cons, sumOver]
      omega

theorem potential_modify (h : Hub) (key : SessionKey) (f : Session → Session)
    (hf : ∀ s, (f s).phase = s.phase) : (h.modify key f).potential = h.potential :=
  sum_modify_eq f (fun s => s.phase.potential) (fun s => by simp only [hf]) h.sessions key

theorem exists_of_phase (h : Hub) (key : SessionKey) (hp : h.phase key ≠ .closed) :
    ∃ s, h.sessions[key]? = some s ∧ s.phase = h.phase key := by
  unfold phase session? at hp ⊢
  cases hs : h.sessions[key]? with
  | none => simp [hs] at hp
  | some s => exact ⟨s, rfl, by simp⟩

theorem potential_markOpen (h : Hub) (key : SessionKey) (hp : h.phase key = .created) :
    (h.modify key fun s => s.markOpen.1).potential + 2 = h.potential := by
  obtain ⟨s, hs, hsp⟩ := exists_of_phase h key (by simp [hp])
  rw [hp] at hsp
  have sum := sum_modify_add (fun s => s.markOpen.1) (fun s => s.phase.potential) h.sessions key
    s hs
  have before : s.phase.potential = 4 := by rw [hsp]; rfl
  have after : s.markOpen.1.phase.potential = 2 := by
    unfold Session.markOpen
    rw [hsp]
    rfl
  simp only [before, after] at sum
  simp only [potential, modify]
  omega

theorem potential_markClosed (h : Hub) (key : SessionKey) :
    (h.modify key fun s => s.markClosed.1).potential
      + (if h.phase key = .closed then 0 else 2) ≤ h.potential := by
  cases hs : h.sessions[key]? with
  | none =>
    have same : h.sessions.modify key (fun s => s.markClosed.1) = h.sessions := by
      apply List.ext_getElem?
      intro i
      rw [List.getElem?_modify]
      split
      · subst_vars; simp [hs]
      · simp
    simp [potential, modify, same, phase, session?, hs]
  | some s =>
    have sum := sum_modify_add (fun s => s.markClosed.1) (fun s => s.phase.potential)
      h.sessions key s hs
    have after : s.markClosed.1.phase.potential = 0 := rfl
    have now : h.phase key = s.phase := by simp [phase, session?, hs]
    have drop : (if h.phase key = .closed then 0 else 2) ≤ s.phase.potential := by
      rw [now]
      cases s.phase <;> decide
    simp only [after] at sum
    simp only [potential, modify]
    omega

theorem potential_logEvent (h : Hub) (key : SessionKey) (event : Session.Event) :
    (h.logEvent key event).potential = h.potential := by
  unfold logEvent
  split
  · rfl
  · cases event <;> rfl

theorem potential_hear (h : Hub) (l : Session.Listener) (key : SessionKey)
    (event : Session.Event) : (h.hear l key event).potential = h.potential := by
  unfold hear
  cases l.logs <;> simp [potential_logEvent] <;> rfl

theorem potential_send (h : Hub) (key : SessionKey) (m : Session.Message) :
    (h.send key m).1.potential = h.potential := by
  unfold send
  split
  · rfl
  · split
    · rfl
    · rfl
    · exact potential_modify h key _ fun s => by
        unfold Session.send
        split <;> rfl

theorem potential_react (h : Hub) (key : SessionKey) (r : Session.Reaction) :
    (h.react key r).1.potential = h.potential := by
  cases r with
  | takeQueue other =>
    refine potential_modify h (other.getD key) _ fun s => ?_
    unfold Session.takeQueue Session.dropQueue
    cases s.holder <;> rfl
  | requestClose other => exact potential_modify h (other.getD key) _ fun s => rfl
  | send other s =>
    have same := potential_send h (other.getD key) (.text s)
    simp only [react]
    cases hsend : h.send (other.getD key) (.text s) with
    | mk k r =>
      rw [hsend] at same
      cases r <;> exact same
  | enlist name =>
    simp only [react]
    cases h.listener? name <;> rfl
  | succeed | fail | panic | waver | closeSession | openSession | closeAll | dismiss => rfl

theorem potential_tell (h : Hub) (l : Session.Listener) (key : SessionKey)
    (event : Session.Event) (index : Nat) :
    (h.tell l key event index).1.potential = h.potential := by
  have hr := potential_react (h.hear l key event) key (l.reaction event.kind)
  rw [potential_hear] at hr
  unfold tell
  split
  · rename_i eq
    rwa [eq] at hr
  · rename_i eq
    rw [eq] at hr
    exact hr

/-- What is left to be done on a hub, as three numbers of which an earlier one counts for more. -/
def measure (h : Hub) (calls : List Call) : Nat × Nat × Nat :=
  (h.potential + Call.unreadAll calls, Call.sweepsAll calls, Call.sizeAll calls)

theorem step_lowers (h : Hub) (c : Call) :
    (c.step h).1.potential + Call.unreadAll (c.step h).2 < h.potential + c.unread
      ∨ (c.step h).1.potential + Call.unreadAll (c.step h).2 = h.potential + c.unread
        ∧ (Call.sweepsAll (c.step h).2 < c.sweeps
          ∨ Call.sweepsAll (c.step h).2 = c.sweeps ∧ Call.sizeAll (c.step h).2 < c.size) := by
  cases c with
  | openSession key =>
    simp only [Call.step]
    cases hp : h.phase key with
    | created =>
      have := potential_markOpen h key hp
      left
      simp [Call.unread]
      omega
    | opened | closed => exact .inr ⟨rfl, .inr ⟨rfl, by simp [Call.size]⟩⟩
  | goLive key => exact .inr ⟨rfl, .inr ⟨rfl, by simp [Call.step, Call.size]⟩⟩
  | closeSession key => exact .inr ⟨rfl, .inr ⟨rfl, by simp [Call.step, Call.size]⟩⟩
  | finishClose key removed =>
    have := potential_markClosed h key
    simp only [Call.step, Call.unread, Call.sweeps, Call.size]
    by_cases hp : h.phase key = .closed
    · simp only [hp, if_true] at this
      simp [hp]
      omega
    · simp only [hp, if_false] at this
      left
      cases removed <;> simp [hp, Call.unread] <;> omega
  | announce key event => exact .inr ⟨rfl, .inr ⟨rfl, by simp [Call.step, Call.size]⟩⟩
  | report key e => exact .inr ⟨rfl, .inr ⟨rfl, by simp [Call.step, Call.size]⟩⟩
  | notify key event => left; simp [Call.step, Call.unread]
  | deliver key event index rest faults =>
    cases rest with
    | nil => exact .inr ⟨rfl, .inr ⟨rfl, by simp [Call.step, Call.size]⟩⟩
    | cons l rest =>
      have told := potential_tell h l key event index
      obtain ⟨unread, sweeps⟩ := Call.calls_bounds key (l.reaction event.kind)
      refine .inr ⟨?_, .inl ?_⟩
      · simp [Call.step, told, Call.unread, unread]
      · simp only [Call.step, Call.sweepsAll_append, Call.sweepsAll_cons, Call.sweepsAll_nil,
          Call.sweeps, List.length_cons]
        omega
  | closeAll first => exact .inr ⟨rfl, .inl (by simp [Call.step, Call.sweeps])⟩
  | closeEach count keys =>
    cases keys with
    | nil =>
      simp only [Call.step, Call.sweeps, Call.size]
      split <;> exact .inr ⟨rfl, .inr ⟨rfl, by simp⟩⟩
    | cons key keys =>
      have same := potential_modify h key Session.requestClose fun s => rfl
      refine .inr ⟨by simp [Call.step, Call.unread, same], .inr ⟨by simp [Call.step, Call.sweeps],
        ?_⟩⟩
      simp [Call.step, Call.size]
      omega

theorem measure_step (h : Hub) (c : Call) (rest : List Call) :
    Prod.Lex (· < ·) (Prod.Lex (· < ·) (· < ·))
      ((c.step h).1.measure ((c.step h).2 ++ rest)) (h.measure (c :: rest)) := by
  have := step_lowers h c
  simp only [measure, Call.unreadAll_append, Call.unreadAll_cons, Call.sweepsAll_append,
    Call.sweepsAll_cons, Call.sizeAll_append, Call.sizeAll_cons, Prod.lex_def]
  omega

/-- Does a whole task, with no other task in between. -/
def run (h : Hub) : List Call → Hub
  | [] => h
  | c :: rest => (c.step h).1.run ((c.step h).2 ++ rest)
termination_by calls => h.measure calls
decreasing_by exact measure_step h c rest

def openSession (h : Hub) (key : SessionKey) : Hub := h.run [.openSession key]

/-- Closes a session and announces it. Closing again does nothing. -/
def closeSession (h : Hub) (key : SessionKey) : Hub := h.run [.closeSession key]

def closeAll (h : Hub) : Hub := h.run [.closeAll []]

end Hub
end Gateway
