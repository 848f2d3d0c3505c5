import Gateway.Proofs.Hub.Alone

/-!
What listeners hear, read off the journal. A step that tells a listener adds one hearing, with the
event, the session and the phase that the session is in; no other step adds any. What a listener
fails with is decided by its reaction and the hub that it finds.
-/
namespace Gateway

open Session (FaultCause Listener)

def Entry.hearing? : Entry → Option Hearing
  | .heard x => some x
  | _ => none

namespace Call

/-- What is heard when a call makes its next step. -/
def hearing? (h : Hub) : Call → Option Hearing
  | .deliver key event _ (l :: _) _ => some ⟨l, event, key, h.phase key⟩
  | _ => none

def tells? (key : SessionKey) (event : Session.Event) : Call → Option Listener
  | .deliver k e _ (l :: _) _ => if k = key ∧ e = event then some l else none
  | _ => none

/-- The listeners that are about to be told of an event of a session. -/
def reads? (key : SessionKey) (event : Session.Event) (h : Hub) : Call → Option (List Listener)
  | .notify k e => if k = key ∧ e = event then some h.registry.listeners else none
  | _ => none

variable {key : SessionKey} {event : Session.Event} {c : Call}

theorem tells?_eq_some {l : Listener} : c.tells? key event = some l
    ↔ ∃ index rest faults, c = .deliver key event index (l :: rest) faults := by
  constructor
  · intro tells
    unfold tells? at tells
    split at tells
    · rename_i k e index first rest faults
      obtain ⟨⟨rfl, rfl⟩, same⟩ := Option.ite_none_right_eq_some.mp tells
      exact ⟨index, rest, faults, by rw [Option.some.inj same]⟩
    · exact absurd tells (by simp)
  · rintro ⟨index, rest, faults, rfl⟩
    exact if_pos ⟨rfl, rfl⟩

theorem reads?_eq_some {h : Hub} {listeners : List Listener} :
    c.reads? key event h = some listeners
      ↔ c = .notify key event ∧ h.registry.listeners = listeners := by
  constructor
  · intro reads
    unfold reads? at reads
    split at reads
    · obtain ⟨⟨rfl, rfl⟩, same⟩ := Option.ite_none_right_eq_some.mp reads
      exact ⟨rfl, Option.some.inj same⟩
    · exact absurd reads (by simp)
  · rintro ⟨rfl, rfl⟩
    exact if_pos ⟨rfl, rfl⟩

end Call

namespace Hub

variable {h k : Hub}

def hearings (h : Hub) : List Hearing := h.journal.filterMap Entry.hearing?

/-- What a reaction fails with, on the hub that it finds. -/
def cause? (h : Hub) (key : SessionKey) : Session.Reaction → Option FaultCause
  | .fail message => some (.failed message)
  | .panic payload => some (.panicked payload.message)
  | .waver outcomes => outcomes[h.waverings]?.join
  | .send other text =>
    (((h.session? (other.getD key)).map fun s => s.sendError? (.text text)).getD
      (some .closed)).map fun e => .failed e.message
  | _ => none

theorem hearings_note {e : Entry} (silent : e.hearing? = none) :
    (h.note e).hearings = h.hearings := by
  rw [hearings, note, List.filterMap_append, hearings]
  simp [silent]

theorem hearings_log (h : Hub) (level : Log.Level) (message : String)
    (fields : List (String × Log.Value)) : (h.log level message fields).hearings = h.hearings :=
  hearings_note rfl

theorem hearings_of_journal (same : k.journal = h.journal) : k.hearings = h.hearings := by
  rw [hearings, same, hearings]

theorem hearings_send (h : Hub) (key : SessionKey) (m : Session.Message) :
    (h.send key m).1.hearings = h.hearings := by
  rw [send]
  cases h.session? key with
  | none => rfl
  | some s =>
      dsimp only
      split
      · exact hearings_log h _ _ _
      · rfl
      · rfl

theorem hearings_logEvent (h : Hub) (key : SessionKey) (event : Session.Event) :
    (h.logEvent key event).hearings = h.hearings := by
  rw [logEvent]
  cases h.session? key with
  | none => rfl
  | some s =>
      cases event with
      | opened | closed | failed => exact hearings_log h _ _ _

theorem hearings_hear (h : Hub) (l : Listener) (key : SessionKey) (event : Session.Event) :
    (h.hear l key event).hearings = h.hearings ++ [⟨l, event, key, h.phase key⟩] := by
  have noted (x : Hearing) : (h.note (.heard x)).hearings = h.hearings ++ [x] := by
    rw [hearings, note, List.filterMap_append, hearings]
    rfl
  rw [hear]
  split
  · rw [hearings_logEvent, noted]
  · exact noted _

theorem hearings_react (h : Hub) (key : SessionKey) (r : Session.Reaction) :
    (h.react key r).1.hearings = h.hearings := by
  cases r with
  | send other text =>
      have sent := hearings_send h (other.getD key) (.text text)
      rw [react]
      generalize h.send (other.getD key) (.text text) = result at sent ⊢
      obtain ⟨k, outcome⟩ := result
      cases outcome with
      | ok | error => exact sent
  | enlist name =>
      rw [react]
      cases h.listener? name with
      | none | some => rfl
  | succeed | fail | panic | waver | takeQueue | closeSession | openSession | closeAll
  | requestClose | dismiss => rfl

theorem hearings_tell (h : Hub) (l : Listener) (key : SessionKey) (event : Session.Event)
    (index : Nat) : (h.tell l key event index).1.hearings
      = h.hearings ++ [⟨l, event, key, h.phase key⟩] := by
  have reacted := hearings_react (h.hear l key event) key (l.reaction event.kind)
  rw [hearings_hear] at reacted
  rw [tell]
  generalize (h.hear l key event).react key (l.reaction event.kind) = reaction at reacted ⊢
  obtain ⟨k, cause⟩ := reaction
  cases cause with
  | none => exact reacted
  | some cause => exact (hearings_log _ _ _ _).trans reacted

/-- Each listener that is told hears of the event, and nobody else hears of anything. -/
theorem hearings_step (h : Hub) (c : Call) :
    (c.step h).1.hearings = h.hearings ++ (c.hearing? h).toList := by
  have quiet {k : Hub} (same : k.hearings = h.hearings) : k.hearings = h.hearings ++ [] := by
    rw [same, List.append_nil]
  cases c with
  | openSession key =>
      refine quiet ?_
      rw [Call.step]
      cases h.phase key with
      | created => rfl
      | opened | closed => exact hearings_log h _ _ _
  | deliver key event index rest faults =>
      cases rest with
      | nil => exact quiet rfl
      | cons l rest => exact hearings_tell h l key event index
  | announce key event =>
      exact quiet ((hearings_log _ _ _ _).trans (hearings_of_journal rfl))
  | report key e => exact quiet (hearings_log h _ _ _)
  | closeEach count keys =>
      cases keys with
      | nil =>
          refine quiet ?_
          rw [Call.step]
          split
          · rfl
          · exact hearings_log h _ _ _
      | cons key keys => exact quiet rfl
  | goLive | closeSession | finishClose | notify | closeAll => exact quiet rfl

theorem react_cause (h : Hub) (key : SessionKey) (r : Session.Reaction) :
    (h.react key r).2 = h.cause? key r := by
  cases r with
  | send other text =>
      rw [react, cause?, send]
      cases h.session? (other.getD key) with
      | none => rfl
      | some s =>
          dsimp only
          cases error : s.sendError? (.text text) with
          | none => simp [error]
          | some e => cases e <;> simp [error]
  | enlist name =>
      rw [react]
      cases h.listener? name with
      | none | some => rfl
  | succeed | fail | panic | waver | takeQueue | closeSession | openSession | closeAll
  | requestClose | dismiss => rfl

theorem waverings_hear (h : Hub) (l : Listener) (key : SessionKey) (event : Session.Event) :
    (h.hear l key event).waverings = h.waverings := by
  have logged (k : Hub) : (k.logEvent key event).waverings = k.waverings := by
    rw [logEvent]
    cases k.session? key with
    | none => rfl
    | some s => cases event <;> rfl
  rw [hear]
  split
  · exact logged _
  · rfl

theorem cause?_hear (h : Hub) (l : Listener) (key : SessionKey) (event : Session.Event)
    (r : Session.Reaction) : (h.hear l key event).cause? key r = h.cause? key r := by
  have sessions := (hear_frame h l key event).1
  cases r with
  | waver outcomes => rw [cause?, waverings_hear, cause?]
  | send other text => rw [cause?, session?, sessions, cause?, session?]
  | _ => rfl

/-- The fault of a listener that is told is the one that its reaction makes. -/
theorem tell_fault (h : Hub) (l : Listener) (key : SessionKey) (event : Session.Event)
    (index : Nat) : (h.tell l key event index).2
      = (h.cause? key (l.reaction event.kind)).map fun cause => ⟨index, event.kind, cause⟩ := by
  have cause := react_cause (h.hear l key event) key (l.reaction event.kind)
  rw [cause?_hear] at cause
  rw [tell, ← cause]
  generalize (h.hear l key event).react key (l.reaction event.kind) = reaction
  obtain ⟨k, outcome⟩ := reaction
  cases outcome with
  | none | some => rfl

/-! ### Steps past -/

variable {past : List (Hub × Call)} {key : SessionKey} {event : Session.Event}

/-- What listeners hear in steps past, oldest first, as the steps enter it in the journal. -/
def heardIn (past : List (Hub × Call)) : List Hearing :=
  past.flatMap fun step => (step.2.step step.1).1.hearings.drop step.1.hearings.length

def told (key : SessionKey) (event : Session.Event) (past : List (Hub × Call)) : List Listener :=
  (heardIn past).filterMap fun x => if x.key = key ∧ x.event = event then some x.listener else none

/-- The lists of listeners that the announcements of an event have read. -/
def readings (key : SessionKey) (event : Session.Event) (past : List (Hub × Call)) :
    List (List Listener) := trace (Call.reads? key event) past

theorem heardIn_cons (h : Hub) (c : Call) (rest : List (Hub × Call)) :
    heardIn ((h, c) :: rest) = (c.hearing? h).toList ++ heardIn rest := by
  rw [heardIn, List.flatMap_cons, hearings_step, List.drop_left, ← heardIn]

theorem heardIn_append (past more : List (Hub × Call)) :
    heardIn (past ++ more) = heardIn past ++ heardIn more := List.flatMap_append

theorem heardIn_snoc (past : List (Hub × Call)) (h : Hub) (c : Call) :
    heardIn (past ++ [(h, c)]) = heardIn past ++ (c.hearing? h).toList := by
  rw [heardIn_append, heardIn_cons]
  exact congrArg _ (List.append_nil _)

theorem told_eq_trace (key : SessionKey) (event : Session.Event) (past : List (Hub × Call)) :
    told key event past = trace (fun _ => Call.tells? key event) past := by
  induction past with
  | nil => rfl
  | cons step past ih =>
      have first : (step.2.hearing? step.1).toList.filterMap (fun x =>
          if x.key = key ∧ x.event = event then some x.listener else none)
          = (step.2.tells? key event).toList := by
        obtain ⟨h, c⟩ := step
        cases c with
        | deliver k e index rest faults =>
            cases rest with
            | nil => rfl
            | cons l rest =>
                by_cases own : k = key ∧ e = event
                · simp [Call.hearing?, Call.tells?, own]
                · simp [Call.hearing?, Call.tells?, own]
        | openSession | goLive | closeSession | finishClose | announce | report | notify | closeAll
        | closeEach => rfl
      rw [told, heardIn_cons, List.filterMap_append, ← told, ih, first, trace, trace,
        List.filterMap_cons]
      cases step.2.tells? key event with
      | none | some => rfl

theorem told_snoc (key : SessionKey) (event : Session.Event) (past : List (Hub × Call)) (h : Hub)
    (c : Call) :
    told key event (past ++ [(h, c)]) = told key event past ++ (c.tells? key event).toList := by
  rw [told_eq_trace, trace_snoc, ← told_eq_trace]

theorem readings_snoc (key : SessionKey) (event : Session.Event) (past : List (Hub × Call))
    (h : Hub) (c : Call) :
    readings key event (past ++ [(h, c)])
      = readings key event past ++ (c.reads? key event h).toList :=
  trace_snoc _ past h c

/-- What is heard under a schedule is what its steps have listeners hear. -/
theorem hearings_interleave (h : Hub) (tasks : List (List Call)) (schedule : List Nat) :
    (h.interleave tasks schedule).1.hearings
      = h.hearings ++ heardIn (h.history tasks schedule) := by
  have kept := @interleave_keeps (fun k _ past => k.hearings = h.hearings ++ heardIn past)
    (fun k _ c _ past same => by
      rw [hearings_step, same, heardIn_snoc, List.append_assoc])
    h tasks [] (List.append_nil _).symm schedule
  rwa [List.nil_append] at kept

theorem hearings_run (h : Hub) (calls : List Call) :
    (h.run calls).hearings = h.hearings ++ heardIn (h.steps calls) := by
  induction h, calls using Hub.run.induct with
  | case1 h => rw [run_nil, steps_nil, heardIn, List.flatMap_nil, List.append_nil]
  | case2 h c rest ih =>
      rw [run_cons, ih, hearings_step, steps_cons, heardIn_cons, List.append_assoc]

end Hub
end Gateway
