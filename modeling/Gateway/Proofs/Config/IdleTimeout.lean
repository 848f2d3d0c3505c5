import Gateway.Proofs.Upgrade.Layers

/-!
The idle timeout of a policy. The last setting of it decides, in whole seconds: what is left over
is dropped, so that a timeout below a second is as good as none.
-/
namespace Gateway.Config

def Setting.idleTimeout? : Setting → Option Duration
  | .idleTimeout d => some d
  | _ => none

def lastIdleTimeout? (settings : List Setting) : Option Duration :=
  (settings.filterMap Setting.idleTimeout?).getLast?

theorem Overrides.idleTimeoutSecs_set (o : Overrides) (setting : Setting) :
    (o.set setting).idleTimeoutSecs
      = (setting.idleTimeout?.map Duration.wholeSecs).or o.idleTimeoutSecs := by
  cases setting with
  | idleTimeout | inputBufferSize | outputBufferSize | maxTextMessageSize | maxBinaryMessageSize
  | maxFrameSize | autoFragment => rfl

/-- Of all settings the last one of the idle timeout is kept, in whole seconds. -/
theorem Overrides.idleTimeoutSecs_setAll (o : Overrides) (settings : List Setting) :
    (o.setAll settings).idleTimeoutSecs
      = ((lastIdleTimeout? settings).map Duration.wholeSecs).or o.idleTimeoutSecs := by
  induction settings generalizing o with
  | nil => rfl
  | cons setting rest ih =>
      have first : o.setAll (setting :: rest) = (o.set setting).setAll rest := rfl
      rw [first, ih, idleTimeoutSecs_set, ← Option.or_assoc, lastIdleTimeout?, lastIdleTimeout?]
      congr 1
      cases asked : setting.idleTimeout? with
      | none => rw [List.filterMap_cons_none asked, Option.map_none, Option.or_none]
      | some d =>
          rw [List.filterMap_cons_some asked, List.getLast?_cons]
          cases (rest.filterMap Setting.idleTimeout?).getLast? with
          | none | some => rfl

theorem Duration.wholeSecs_bounds (d : Duration) : (ofSecs d.wholeSecs).nanos ≤ d.nanos
    ∧ d.nanos < (ofSecs d.wholeSecs).nanos + (ofSecs 1).nanos := by
  simp only [ofSecs, wholeSecs]
  omega

theorem Duration.wholeSecs_pos_iff {d : Duration} :
    0 < d.wholeSecs ↔ (ofSecs 1).nanos ≤ d.nanos := by
  simp only [ofSecs, wholeSecs]
  omega

end Gateway.Config

namespace Gateway.Upgrade

open Config (Duration Overrides SessionConfig Setting lastIdleTimeout?)

/-- The seconds that overrides leave in a policy, if no later act writes them. -/
theorem idleTimeoutSecs_layAll (base : SessionConfig) (settings : List Setting)
    {acts : List CreatorAct} (silent : ∀ a ∈ acts, ¬ a.Writes .idleTimeoutSecs) :
    (layAll (base.customized (Overrides.setAll {} settings)) acts).idleTimeoutSecs
      = ((lastIdleTimeout? settings).map Duration.wholeSecs).getD base.idleTimeoutSecs := by
  have settled : (layAll (base.customized (Overrides.setAll {} settings)) acts).get
    .idleTimeoutSecs = _ := get_layAll
  have overridden := Overrides.idleTimeoutSecs_setAll {} settings
  rw [Option.or_none] at overridden
  rw [lastWritten?_eq_none_iff.mpr silent, SessionConfig.get_customized] at settled
  rw [← overridden]
  exact settled

/-- The last setting of the idle timeout decides it, whatever else is set before, in between or
later. A second or more is kept but for what goes beyond whole seconds; less than a second is no
timeout; and without a setting the timeout is that of the policy underneath. -/
theorem last_setting_decides_idleTimeout (base : SessionConfig) (settings : List Setting)
    (acts : List CreatorAct) (silent : ∀ a ∈ acts, ¬ a.Writes .idleTimeoutSecs) :
    let timeout := (layAll (base.customized (Overrides.setAll {} settings)) acts).idleTimeout
    (∀ d, lastIdleTimeout? settings = some d → (Duration.ofSecs 1).nanos ≤ d.nanos →
        ∃ t, timeout = some t ∧ 0 < t.nanos
          ∧ t.nanos ≤ d.nanos ∧ d.nanos < t.nanos + (Duration.ofSecs 1).nanos)
      ∧ (∀ d, lastIdleTimeout? settings = some d → d.nanos < (Duration.ofSecs 1).nanos →
        timeout = none)
      ∧ (lastIdleTimeout? settings = none → timeout = base.idleTimeout) := by
  have secs := idleTimeoutSecs_layAll base settings silent
  intro timeout
  refine ⟨?_, ?_, ?_⟩
  · intro d last long
    rw [last, Option.map_some, Option.getD_some] at secs
    have positive : 0 < d.wholeSecs := Duration.wholeSecs_pos_iff.mpr long
    obtain ⟨low, high⟩ := d.wholeSecs_bounds
    refine ⟨.ofSecs d.wholeSecs, ?_, ?_, low, high⟩
    · rw [← secs] at positive ⊢
      exact if_pos positive
    · exact Nat.mul_pos positive (by decide)
  · intro d last short
    rw [last, Option.map_some, Option.getD_some] at secs
    have nothing : ¬ 0 < d.wholeSecs := mt Duration.wholeSecs_pos_iff.mp (Nat.not_le.mpr short)
    rw [← secs] at nothing
    exact if_neg nothing
  · intro unset
    rw [unset, Option.map_none, Option.getD_none] at secs
    simp only [timeout, SessionConfig.idleTimeout, secs]

/-- A second and a half, set between other settings and customised further, is one second. -/
theorem last_setting_decides_idleTimeout_between :
    let settings : List Setting :=
      [.idleTimeout ⟨0⟩, .idleTimeout (.ofMillis 1500), .maxFrameSize 8]
    let acts : List CreatorAct := [.customize { maxFrameSize := some 9 },
      .edit fun c => { c with inputBufferSize := c.maxFrameSize }]
    (∀ a ∈ acts, ¬ a.Writes .idleTimeoutSecs)
      ∧ ∃ t, (layAll (SessionConfig.customized {} (Overrides.setAll {} settings)) acts).idleTimeout
        = some t ∧ 0 < t.nanos := by
  intro settings acts
  have silent : ∀ a ∈ acts, ¬ a.Writes .idleTimeoutSecs := by
    intro a among
    rcases List.mem_cons.mp among with rfl | later
    · exact fun writes => writes rfl
    · obtain rfl := List.mem_singleton.mp later
      rintro ⟨c, changed⟩
      exact changed rfl
  obtain ⟨t, timeout, positive, -⟩ := (last_setting_decides_idleTimeout {} settings acts silent).1
    (.ofMillis 1500) rfl (by decide)
  exact ⟨silent, t, timeout, positive⟩

/-- Not only zero is no timeout. Half a second, set last and never changed, is none. -/
theorem half_second_is_no_timeout : ¬ ∀ (base : SessionConfig) (settings : List Setting)
    (acts : List CreatorAct) (d : Duration), (∀ a ∈ acts, ¬ a.Writes .idleTimeoutSecs) →
      lastIdleTimeout? settings = some d → 0 < d.nanos →
        ∃ t, (layAll (base.customized (Overrides.setAll {} settings)) acts).idleTimeout = some t
          ∧ 0 < t.nanos := by
  intro kept
  obtain ⟨t, timeout, -⟩ := kept {} [.idleTimeout (.ofMillis 500)] [] (.ofMillis 500) nofun rfl
    (by decide)
  exact Option.some_ne_none t timeout.symm

end Gateway.Upgrade
