import Gateway.Proofs.Hub.Audience
import Gateway.Proofs.Hub.Hearing

/-!
Sessions that come and go while a task runs on its own. A session becomes live in one step and is
taken out in one step, and each such step goes back to a call: one that the task begins with, or one
that a listener makes over what it hears.
-/
namespace Gateway

namespace Call

/-- What a step of a call does to the live sessions. -/
def moves (live : List SessionKey) : Call → List SessionKey
  | .goLive key => live ++ [key]
  | .closeSession key => live.filter (· != key)
  | _ => live

def comes? : Call → Option SessionKey
  | .goLive key => some key
  | _ => none

theorem comes?_eq_some {c : Call} {key : SessionKey} : c.comes? = some key ↔ c = .goLive key := by
  cases c <;> simp [comes?]

end Call

namespace Hub

variable {h k : Hub} {key : SessionKey} {c : Call} {calls first : List Call}
  {past : List (Hub × Call)}

theorem live_step_eq (h : Hub) (c : Call) :
    (c.step h).1.registry.live = c.moves h.registry.live := by
  cases c with
  | openSession key =>
      rw [Call.step]
      cases h.phase key with
      | created | opened | closed => rfl
  | deliver key event index rest faults =>
      cases rest with
      | nil => rfl
      | cons l rest => exact (tell_frame h l key event index).1.live
  | closeEach count keys =>
      cases keys with
      | nil =>
          rw [Call.step]
          split
          · rfl
          · rfl
      | cons key keys => rfl
  | goLive | closeSession | finishClose | announce | report | notify | closeAll => rfl

def liveAfter (live : List SessionKey) (past : List (Hub × Call)) : List SessionKey :=
  past.foldl (fun live step => step.2.moves live) live

theorem liveAfter_append (live : List SessionKey) (past more : List (Hub × Call)) :
    liveAfter live (past ++ more) = liveAfter (liveAfter live past) more := List.foldl_append

theorem live_run (h : Hub) (calls : List Call) :
    (h.run calls).registry.live = liveAfter h.registry.live (h.steps calls) := by
  induction h, calls using Hub.run.induct with
  | case1 h => rw [run_nil, steps_nil]; rfl
  | case2 h c rest ih => rw [run_cons, ih, steps_cons, live_step_eq]; rfl

/-- The sessions that become live in steps past. -/
def comings (past : List (Hub × Call)) : List SessionKey := past.filterMap fun step => step.2.comes?

theorem mem_comings {past : List (Hub × Call)} :
    key ∈ comings past ↔ ∃ step ∈ past, step.2 = .goLive key := by
  simp only [comings, List.mem_filterMap, Call.comes?_eq_some]

theorem comings_append (past more : List (Hub × Call)) :
    comings (past ++ more) = comings past ++ comings more := List.filterMap_append

theorem comings_cons (h : Hub) (c : Call) (past : List (Hub × Call)) :
    comings ((h, c) :: past) = c.comes?.toList ++ comings past := by
  rw [comings, comings, List.filterMap_cons]
  cases c.comes? with
  | none | some => rfl

/-- Where nobody is taken out, those that have come are behind those that were there. -/
theorem liveAfter_of_comings (none_goes : ∀ step ∈ past, ∀ key, step.2 ≠ .closeSession key)
    (live : List SessionKey) : liveAfter live past = live ++ comings past := by
  induction past generalizing live with
  | nil => exact (List.append_nil live).symm
  | cons step past ih =>
      obtain ⟨stays, later⟩ := List.forall_mem_cons.mp none_goes
      have next : liveAfter live (step :: past) = liveAfter (step.2.moves live) past := rfl
      obtain ⟨found, call⟩ := step
      rw [next, ih later, comings_cons]
      cases call with
      | goLive key => simp [Call.moves, Call.comes?]
      | closeSession key => exact absurd rfl (stays key)
      | _ => rfl

theorem mem_liveAfter (stays : ∀ step ∈ past, step.2 ≠ .closeSession key) {live : List SessionKey} :
    key ∈ liveAfter live past ↔ key ∈ live ∨ key ∈ comings past := by
  induction past generalizing live with
  | nil => exact (or_iff_left List.not_mem_nil).symm
  | cons step past ih =>
      obtain ⟨own, later⟩ := List.forall_mem_cons.mp stays
      obtain ⟨found, call⟩ := step
      have next : liveAfter live ((found, call) :: past) = liveAfter (call.moves live) past := rfl
      rw [next, ih later, comings_cons, List.mem_append, ← or_assoc]
      refine or_congr_left ?_
      cases call with
      | goLive other => simp [Call.moves, Call.comes?]
      | closeSession other =>
          have apart : key ≠ other := fun same => own (congrArg Call.closeSession same.symm)
          simp [Call.moves, Call.comes?, apart]
      | _ => simp [Call.moves, Call.comes?]

theorem mem_of_mem_liveAfter {live : List SessionKey} (among : key ∈ liveAfter live past) :
    key ∈ live ∨ key ∈ comings past := by
  induction past generalizing live with
  | nil => exact .inl among
  | cons step past ih =>
      obtain ⟨found, call⟩ := step
      rw [comings_cons, List.mem_append]
      rcases ih among with before | comes
      · cases call with
        | goLive other => simpa [Call.moves, Call.comes?, or_assoc] using Or.inl (b := _) before
        | closeSession other => exact .inl (List.mem_filter.mp before).1
        | _ => exact .inl before
      · exact .inr (.inr comes)

/-! ### Whose calls they are -/

/-- Somebody makes a call: a task begins with it, or a listener makes it over what it hears. -/
def Wanted (first : List Call) (past : List (Hub × Call)) (c : Call) : Prop :=
  c ∈ first ∨ ∃ x ∈ heardIn past, c ∈ (x.listener.reaction x.event.kind).calls x.key

/-- Somebody wants a session to be closed, or all of them. -/
def WantedOut (first : List Call) (past : List (Hub × Call)) (key : SessionKey) : Prop :=
  Wanted first past (.closeSession key) ∨ ∃ some_first, Wanted first past (.closeAll some_first)

/-- A call that opens or closes sessions goes back to one that somebody makes. -/
def Founded (first : List Call) (past : List (Hub × Call)) : Call → Prop
  | .openSession key | .goLive key => Wanted first past (.openSession key)
  | .closeSession key => WantedOut first past key
  | .closeAll some_first => Wanted first past (.closeAll some_first)
  | .closeEach _ _ => ∃ some_first, Wanted first past (.closeAll some_first)
  | _ => True

theorem Wanted.append (wanted : Wanted first past c) (more : List Call)
    (later : List (Hub × Call)) : Wanted (first ++ more) (past ++ later) c := by
  rcases wanted with among | ⟨x, heard, called⟩
  · exact .inl (List.mem_append_left more among)
  · refine .inr ⟨x, ?_, called⟩
    rw [heardIn_append]
    exact List.mem_append_left _ heard

theorem Founded.append (founded : Founded first past c) (more : List Call)
    (later : List (Hub × Call)) : Founded (first ++ more) (past ++ later) c := by
  cases c with
  | openSession | goLive | closeAll => exact Wanted.append founded more later
  | closeSession =>
      rcases founded with one | ⟨some_first, all⟩
      · exact .inl (one.append more later)
      · exact .inr ⟨some_first, all.append more later⟩
  | closeEach =>
      obtain ⟨some_first, all⟩ := founded
      exact ⟨some_first, all.append more later⟩
  | finishClose | announce | report | notify | deliver => trivial

theorem Wanted.founded (wanted : Wanted first past c) (entry : c.isEntry = true) :
    Founded first past c := by
  cases c with
  | openSession | closeAll => exact wanted
  | closeSession => exact .inl wanted
  | report => trivial
  | goLive | finishClose | announce | notify | deliver | closeEach =>
      exact absurd entry Bool.false_ne_true

theorem isEntry_of_calls {r : Session.Reaction} (called : c ∈ r.calls key) : c.isEntry = true := by
  rcases Session.Reaction.mem_calls called with ⟨_, rfl⟩ | ⟨_, rfl⟩ | ⟨_, rfl⟩
  · rfl
  · rfl
  · rfl

theorem founded_step (founded : Founded first past c) :
    ∀ m ∈ (c.step h).2, Founded first (past ++ [(h, c)]) m := by
  have kept := founded.append [] [(h, c)]
  rw [List.append_nil] at kept
  -- What a listener calls is wanted once it has heard of the event.
  have heard {key : SessionKey} {event : Session.Event} {index : Nat} {l : Session.Listener}
      {rest : List Session.Listener} {faults : List Session.Fault} {m : Call}
      (telling : c = .deliver key event index (l :: rest) faults)
      (called : m ∈ (l.reaction event.kind).calls key) : Founded first (past ++ [(h, c)]) m := by
    refine Wanted.founded (.inr ⟨⟨l, event, key, h.phase key⟩, ?_, called⟩)
      (isEntry_of_calls called)
    rw [heardIn_snoc, telling]
    exact List.mem_append_right _ (List.mem_singleton.mpr rfl)
  intro m among
  cases left_of_step h c m among with
  | opening => exact kept
  | reopens called | recloses called | resweeps called => exact heard rfl called
  | @all some_first => exact ⟨some_first, kept⟩
  | one => exact .inr kept
  | others => exact kept
  | opened | closing | closed | announced | reported | read | told => trivial

/-- All that a task does on its own goes back to the calls that it begins with, or to listeners. -/
theorem founded_steps (founded : ∀ m ∈ calls, Founded first past m) :
    ∀ step ∈ h.steps calls, Founded first (past ++ h.steps calls) step.2 := by
  induction h, calls using Hub.run.induct generalizing past with
  | case1 h =>
      rw [steps_nil]
      exact List.forall_mem_nil _
  | case2 h c rest ih =>
      obtain ⟨now, others⟩ := List.forall_mem_cons.mp founded
      rw [steps_cons, ← List.singleton_append, ← List.append_assoc]
      refine List.forall_mem_cons.mpr ⟨?_, ih ?_⟩
      · have kept := now.append [] ([(h, c)] ++ (c.step h).1.steps ((c.step h).2 ++ rest))
        rwa [List.append_nil, ← List.append_assoc] at kept
      · refine List.forall_mem_append.mpr ⟨founded_step now, fun m among => ?_⟩
        have kept := (others m among).append [] [(h, c)]
        rwa [List.append_nil] at kept

/-! ### What a run keeps -/

theorem asMade_run (h : Hub) (calls : List Call) (key : SessionKey) :
    ((h.run calls).session? key).map Session.asMade = (h.session? key).map Session.asMade := by
  induction h, calls using Hub.run.induct with
  | case1 h => rw [run_nil]
  | case2 h c rest ih =>
      rw [run_cons, ih, session?_step, Option.map_map]
      exact Option.map_congr fun s _ => c.asMade_edit key s

theorem goLive_not_left (old : h.phase key ≠ .created) : .goLive key ∉ (c.step h).2 := by
  intro among
  cases left_of_step h c _ among with
  | opening new => exact old new

/-- A session that is not new becomes live only if it is about to. -/
theorem comings_of_old (old : h.phase key ≠ .created) (unknown : .goLive key ∉ calls) :
    key ∉ comings (h.steps calls) := by
  induction h, calls using Hub.run.induct with
  | case1 h =>
      rw [steps_nil]
      exact List.not_mem_nil
  | case2 h c rest ih =>
      obtain ⟨apart, later⟩ := not_or.mp (mt List.mem_cons.mpr unknown)
      have others := ih (((later_step h c).phase key).old old)
        (List.not_mem_append (goLive_not_left old) later)
      rw [steps_cons, comings_cons]
      refine List.not_mem_append ?_ others
      rw [Option.mem_toList, Call.comes?_eq_some]
      exact Ne.symm apart

def LiveMade (h : Hub) : Prop := ∀ key ∈ h.registry.live, h.session? key ≠ none

theorem liveMade_run (made : h.LiveMade)
    (known : ∀ key, .goLive key ∈ calls → h.session? key ≠ none) : (h.run calls).LiveMade := by
  induction h, calls using Hub.run.induct with
  | case1 h => rwa [run_nil]
  | case2 h c rest ih =>
      have still {key : SessionKey} (there : h.session? key ≠ none) :
          (c.step h).1.session? key ≠ none := by
        rw [session?_step]
        simpa using there
      rw [run_cons]
      refine ih ?_ ?_
      · intro key among
        refine still ?_
        rw [live_step_eq] at among
        cases c with
        | goLive new =>
            rcases List.mem_append.mp among with old | own
            · exact made key old
            · rw [List.mem_singleton.mp own]
              exact known new List.mem_cons_self
        | closeSession gone => exact made key (List.mem_filter.mp among).1
        | openSession | finishClose | announce | report | notify | deliver | closeAll
        | closeEach => exact made key among
      · intro key among
        refine still ?_
        rcases List.mem_append.mp among with new | later
        · cases left_of_step h c _ new with
          | opening created =>
              intro unmade
              rw [phase, unmade] at created
              exact absurd created (by simp)
        · exact known key (List.mem_cons_of_mem c later)

theorem Audience.run {P : Session.Listener → Prop} {serial : Nat} (audience : Audience P serial h)
    (waits : ∀ m ∈ calls, ∀ l ∈ waiting m, P l) : Audience P serial (h.run calls)
      ∧ ∀ x ∈ heardIn (h.steps calls), P x.listener := by
  induction h, calls using Hub.run.induct with
  | case1 h =>
      rw [run_nil, steps_nil]
      exact ⟨audience, List.forall_mem_nil _⟩
  | case2 h c rest ih =>
      obtain ⟨own, others⟩ := List.forall_mem_cons.mp waits
      obtain ⟨next, left⟩ := audience.step c own
      obtain ⟨last, later⟩ := ih next (List.forall_mem_append.mpr ⟨left, others⟩)
      rw [run_cons, steps_cons, heardIn_cons]
      refine ⟨last, List.forall_mem_append.mpr ⟨?_, later⟩⟩
      cases c with
      | deliver key event index rest faults =>
          cases rest with
          | nil => exact List.forall_mem_nil _
          | cons l rest => exact List.forall_mem_singleton.mpr (own l List.mem_cons_self)
      | _ => exact List.forall_mem_nil _

end Hub
end Gateway
