import Gateway.Hub.Run
import Gateway.Proofs.Hub.Sessions

/-!
How often a session is in the live set: never twice, under any interleaving of tasks. A session
goes live for its one opening, and the calls that will make it live are counted with it.
-/
namespace Gateway

namespace Hub

variable {h k : Hub} {key : SessionKey}

/-- How often a session may be live or about to be: once, if it has been opened or closed. -/
def allowance (h : Hub) (key : SessionKey) : Nat :=
  match h.session? key with
  | none => 0
  | some s => if s.phase = .created then 0 else 1

theorem allowance_le (key : SessionKey) {f : Session → Session}
    (now : k.session? key = (h.session? key).map f)
    (old : ∀ s, (f s).phase = .created → s.phase = .created) :
    h.allowance key ≤ k.allowance key := by
  rw [allowance, allowance, now]
  cases h.session? key with
  | none => exact Nat.le_refl 0
  | some s =>
      rw [Option.map_some]
      dsimp only
      by_cases created : (f s).phase = .created
      · exact Nat.le_of_eq (by rw [if_pos created, if_pos (old s created)])
      · rw [if_neg created]
        split
        · exact Nat.zero_le 1
        · exact Nat.le_refl 1

end Hub

theorem Call.edit_created (c : Call) (key : SessionKey) (s : Session)
    (new : (c.edit key s).phase = .created) : s.phase = .created := by
  cases c with
  | openSession k =>
      rw [Call.edit] at new
      split at new
      · rw [Session.markOpen] at new
        cases phase : s.phase with
        | created => rfl
        | opened | closed => rw [phase] at new; exact phase.symm.trans new
      · exact new
  | finishClose k removed =>
      rw [Call.edit] at new
      split at new
      · exact absurd new (by simp [Session.markClosed])
      · exact new
  | deliver k event index rest faults =>
      cases rest with
      | nil => exact new
      | cons l rest =>
          rw [Call.edit] at new
          split at new
          · rwa [(Session.Reaction.effect_keeps _ s).1] at new
          · exact new
  | closeEach count keys =>
      cases keys with
      | nil => exact new
      | cons k keys =>
          rw [Call.edit] at new
          split at new
          · exact new
          · exact new
  | goLive | closeSession | announce | report | notify | closeAll => exact new

namespace Hub

/-- Only the second step of an opening makes a session live. -/
theorem count_live_step (h : Hub) {c : Call} {key : SessionKey} (other : c ≠ .goLive key) :
    (c.step h).1.registry.live.count key ≤ h.registry.live.count key := by
  cases c with
  | openSession k =>
      rw [Call.step]
      cases h.phase k with
      | created | opened | closed => exact Nat.le_refl _
  | goLive k =>
      have apart : k ≠ key := fun same => other (same ▸ rfl)
      simp [Call.step, apart]
  | closeSession k => exact List.filter_sublist.count_le key
  | deliver k event index rest faults =>
      cases rest with
      | nil => exact Nat.le_refl _
      | cons l rest =>
          have same := (tell_frame h l k event index).1.live
          exact Nat.le_of_eq (congrArg (List.count key) same)
  | closeEach count keys =>
      cases keys with
      | nil =>
          rw [Call.step]
          split
          · exact Nat.le_refl _
          · exact Nat.le_refl _
      | cons k keys => exact Nat.le_refl _
  | finishClose | announce | report | notify | closeAll => exact Nat.le_refl _

theorem live_step (h : Hub) (c : Call) (key : SessionKey) :
    (c.step h).1.registry.live.count key + (c.step h).2.count (.goLive key) + h.allowance key
      ≤ h.registry.live.count key + [c].count (.goLive key) + (c.step h).1.allowance key := by
  have stands : h.allowance key ≤ (c.step h).1.allowance key :=
    allowance_le key (session?_step h c key) (c.edit_created key)
  by_cases lives : c = .goLive key
  · subst lives
    have same : (Call.step h (.goLive key)).1.allowance key = h.allowance key := rfl
    rw [same]
    simp [Call.step]
  · have fewer := count_live_step h lives
    by_cases opens : .goLive key ∈ (c.step h).2
    · -- The session stops being new, and is about to be live.
      cases left_of_step h c _ opens with
      | opening now =>
          obtain ⟨s, found, new⟩ := exists_of_phase h key (by rw [now]; simp)
          rw [now] at new
          have before : h.allowance key = 0 := by
            rw [allowance, session?, found]
            exact if_pos new
          have after : (h.modify key fun s => s.markOpen.1).allowance key = 1 := by
            rw [allowance, session?_modify, if_pos rfl, session?, found]
            simp [Session.markOpen, new]
          rw [Call.step, now] at fewer ⊢
          simp only [before, after]
          simp
          omega
    · have none_goes : (c.step h).2.count (.goLive key) = 0 := List.count_eq_zero.mpr opens
      omega

/-- No session is live twice, or live and about to be, and none that is new. -/
def Once (h : Hub) (calls : List Call) : Prop :=
  ∀ key, h.registry.live.count key + calls.count (.goLive key) ≤ h.allowance key

theorem Once.step {before after : List Call} {c : Call} (once : Once h (before ++ c :: after)) :
    Once (c.step h).1 (before ++ (c.step h).2 ++ after) := by
  intro key
  have now := once key
  have moved := live_step h c key
  have split : (before ++ c :: after).count (.goLive key)
      = before.count (.goLive key) + [c].count (.goLive key) + after.count (.goLive key) := by
    rw [← List.singleton_append, List.count_append, List.count_append]
    omega
  rw [List.count_append, List.count_append]
  omega

theorem allowance_le_one (h : Hub) (key : SessionKey) : h.allowance key ≤ 1 := by
  rw [allowance]
  split
  · exact Nat.zero_le 1
  · split
    · exact Nat.zero_le 1
    · exact Nat.le_refl 1

theorem Once.nodup {calls : List Call} (once : Once h calls) : h.registry.live.Nodup := by
  refine List.nodup_iff_count.mpr fun key => ?_
  have := once key
  have := allowance_le_one h key
  omega

end Hub
end Gateway
