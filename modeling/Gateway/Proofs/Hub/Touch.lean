import Gateway.Proofs.Hub.Frame

/-!
What one step of a call does for one session: it goes on elsewhere, or it is one of the steps of
closing the session.
-/
namespace Gateway

namespace Call

/-- A call is past its first step in opening or closing a session. -/
def concerns (key : SessionKey) : Call → Bool
  | .goLive k | .finishClose k _ | .announce k .closed | .notify k .closed
  | .deliver k .closed _ _ _ => k == key
  | _ => false

/-- A call that can still announce a session closed, or make it live. -/
def critical (key : SessionKey) (c : Call) : Bool := c.concerns key && c != .finishClose key false

/-- A call that will take a live session out. -/
def closes (key : SessionKey) : Call → Bool
  | .closeSession k => k == key
  | .closeAll _ => true
  | .closeEach _ keys => keys.contains key
  | _ => false

end Call

namespace Hub

/-- What one step does for one session. -/
inductive Touch (key : SessionKey) (h : Hub) : Call → Hub × List Call → Prop
  | elsewhere {c : Call} {k : Hub} {more : List Call} : c.concerns key = false →
      k.phase key = h.phase key → (key ∈ k.registry.live ↔ key ∈ h.registry.live) →
      (∀ m ∈ more, m.concerns key = false) →
      (c.closes key = true → key ∈ h.registry.live → ∃ m ∈ more, m.closes key = true) →
      Touch key h c (k, more)
  | remove {k : Hub} : k.phase key = h.phase key → key ∉ k.registry.live →
      Touch key h (.closeSession key) (k, [.finishClose key (h.registry.live.contains key)])
  | swap {k : Hub} {removed : Bool} : k.phase key = .closed →
      k.registry.live = h.registry.live → Touch key h (.finishClose key removed)
        (k, if removed && h.phase key != .closed then [.announce key .closed] else [])
  | announce {k : Hub} : SameStanding h k →
      Touch key h (.announce key .closed) (k, [.notify key .closed])
  | notify : Touch key h (.notify key .closed) (h, [.deliver key .closed 0 h.registry.listeners []])
  | delivered {k : Hub} {index : Nat} {faults : List Session.Fault} : SameStanding h k →
      Touch key h (.deliver key .closed index [] faults) (k, [])
  | deliver {k : Hub} {index : Nat} {l : Session.Listener} {rest : List Session.Listener}
      {faults faults' : List Session.Fault} {calls : List Call} : SameStanding h k →
      (∀ c ∈ calls, c.concerns key = false) →
      Touch key h (.deliver key .closed index (l :: rest) faults)
        (k, calls ++ [.deliver key .closed (index + 1) rest faults'])

variable {key : SessionKey} {h : Hub}

theorem Touch.of_same {c : Call} {k : Hub} {more : List Call} (apart : c.concerns key = false)
    (same : SameStanding h k) (quiet : ∀ m ∈ more, m.concerns key = false)
    (idle : c.closes key = false) : Touch key h c (k, more) := by
  refine .elsewhere apart (same.phase key) ?_ quiet ?_
  · rw [same.live]
  · intro closes
    rw [idle] at closes
    exact absurd closes Bool.false_ne_true

theorem concerns_of_other {k : SessionKey} {event : Session.Event}
    (other : ¬ (event = .closed ∧ k = key)) : Call.concerns key (.announce k event) = false
      ∧ Call.concerns key (.notify k event) = false ∧ ∀ index rest faults,
        Call.concerns key (.deliver k event index rest faults) = false := by
  cases event with
  | opened => exact ⟨rfl, rfl, fun _ _ _ => rfl⟩
  | closed =>
      have ne : (k == key) = false := by simpa using other
      exact ⟨ne, ne, fun _ _ _ => ne⟩
  | failed e => exact ⟨rfl, rfl, fun _ _ _ => rfl⟩

/-- What a listener calls from inside is before its first step. -/
theorem concerns_of_calls {k : SessionKey} {r : Session.Reaction} :
    ∀ c ∈ r.calls k, c.concerns key = false := by
  intro c called
  rcases Session.Reaction.mem_calls called with ⟨_, rfl⟩ | ⟨_, rfl⟩ | ⟨_, rfl⟩
  · rfl
  · rfl
  · rfl

theorem touch_openSession (k : SessionKey) (old : h.phase key ≠ .created) :
    Touch key h (.openSession k) (Call.step h (.openSession k)) := by
  rw [Call.step]
  cases phase : h.phase k with
  | created =>
      have ne : k ≠ key := by
        rintro rfl
        exact old phase
      refine .elsewhere rfl (phase_modify_ne h _ ne) Iff.rfl ?_ (by simp [Call.closes])
      intro m hm
      rw [List.mem_singleton.mp hm]
      simpa [Call.concerns] using ne
  | opened | closed => exact .of_same rfl (sameStanding_of_eq rfl rfl) (by simp) rfl

theorem touch_closeSession (k : SessionKey) :
    Touch key h (.closeSession k) (Call.step h (.closeSession k)) := by
  by_cases own : k = key
  · subst own
    exact .remove rfl (by simp)
  · refine .elsewhere rfl rfl ?_ ?_ (by simp [Call.closes, own])
    · simp [Ne.symm own]
    · intro m hm
      rw [List.mem_singleton.mp hm]
      simpa [Call.concerns] using own

theorem touch_finishClose (k : SessionKey) (removed : Bool) :
    Touch key h (.finishClose k removed) (Call.step h (.finishClose k removed)) := by
  by_cases own : k = key
  · subst own
    exact .swap (phase_markClosed h k) rfl
  · refine .elsewhere (by simpa [Call.concerns] using own) (phase_modify_ne h _ own) Iff.rfl ?_
      (by simp [Call.closes])
    intro m hm
    split at hm
    · rw [List.mem_singleton.mp hm]
      simpa [Call.concerns] using own
    · exact absurd hm List.not_mem_nil

theorem touch_event (k : SessionKey) (event : Session.Event) :
    Touch key h (.announce k event) (Call.step h (.announce k event))
      ∧ Touch key h (.notify k event) (Call.step h (.notify k event)) := by
  by_cases own : event = .closed ∧ k = key
  · obtain ⟨rfl, rfl⟩ := own
    exact ⟨.announce (sameStanding_of_eq rfl rfl), .notify⟩
  · obtain ⟨apart, apart', later⟩ := concerns_of_other own
    constructor
    · refine .of_same apart (sameStanding_of_eq rfl rfl) ?_ rfl
      intro m hm
      rwa [List.mem_singleton.mp hm]
    · refine .of_same apart' (sameStanding_of_eq rfl rfl) ?_ rfl
      intro m hm
      rw [List.mem_singleton.mp hm]
      exact later _ _ _

theorem touch_deliver (k : SessionKey) (event : Session.Event) (index : Nat)
    (rest : List Session.Listener) (faults : List Session.Fault) :
    Touch key h (.deliver k event index rest faults)
      (Call.step h (.deliver k event index rest faults)) := by
  cases rest with
  | nil =>
      by_cases own : event = .closed ∧ k = key
      · obtain ⟨rfl, rfl⟩ := own
        exact .delivered (sameStanding_of_eq rfl rfl)
      · exact .of_same ((concerns_of_other own).2.2 _ _ _) (sameStanding_of_eq rfl rfl)
          (by simp) rfl
  | cons l rest =>
      have told := (tell_frame h l k event index).1
      by_cases own : event = .closed ∧ k = key
      · obtain ⟨rfl, rfl⟩ := own
        exact .deliver told concerns_of_calls
      · obtain ⟨-, -, apart⟩ := concerns_of_other own
        refine .of_same (apart _ _ _) told ?_ rfl
        intro m hm
        rcases List.mem_append.mp hm with called | goes_on
        · exact concerns_of_calls m called
        · rw [List.mem_singleton.mp goes_on]
          exact apart _ _ _

theorem touch_closeEach (count : Nat) (keys : List SessionKey) :
    Touch key h (.closeEach count keys) (Call.step h (.closeEach count keys)) := by
  cases keys with
  | nil =>
      rw [Call.step]
      split
      · exact .of_same rfl (sameStanding_of_eq rfl rfl) (by simp) rfl
      · exact .of_same rfl (sameStanding_of_eq rfl rfl) (by simp) rfl
  | cons k keys =>
      have asked := sameStanding_modify h k (f := Session.requestClose) fun s => rfl
      refine .elsewhere rfl (asked.phase key) Iff.rfl (by simp [Call.concerns]) ?_
      intro closes _
      by_cases own : k = key
      · exact ⟨.closeSession k, by simp, by simp [Call.closes, own]⟩
      · refine ⟨.closeEach count keys, by simp, ?_⟩
        have among : key ∈ keys := by simpa [Call.closes, Ne.symm own] using closes
        simpa [Call.closes] using among

/-- The steps of every call; a session that is new or about to be live is not meant. -/
theorem touch (c : Call) (old : h.phase key ≠ .created) (known : c ≠ .goLive key) :
    Touch key h c (c.step h) := by
  cases c with
  | openSession k => exact touch_openSession k old
  | goLive k =>
      have ne : k ≠ key := by
        rintro rfl
        exact known rfl
      refine .elsewhere (by simpa [Call.concerns] using ne) rfl ?_ ?_ (by simp [Call.closes])
      · simp [Ne.symm ne]
      · intro m hm
        rw [List.mem_singleton.mp hm]
        rfl
  | closeSession k => exact touch_closeSession k
  | finishClose k removed => exact touch_finishClose k removed
  | announce k event => exact (touch_event k event).1
  | report k e => exact .of_same rfl (sameStanding_of_eq rfl rfl) (by simp [Call.concerns]) rfl
  | notify k event => exact (touch_event k event).2
  | deliver k event index rest faults => exact touch_deliver k event index rest faults
  | closeAll first =>
      refine .elsewhere rfl rfl Iff.rfl (by simp [Call.concerns]) ?_
      intro _ live
      have among := (visit_perm first h.registry.live).mem_iff.mpr live
      exact ⟨_, List.mem_singleton.mpr rfl, List.contains_iff_mem.mpr among⟩
  | closeEach count keys => exact touch_closeEach count keys

end Hub
end Gateway
