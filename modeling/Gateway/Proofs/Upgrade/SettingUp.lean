import Gateway.Proofs.Path.Table
import Gateway.Upgrade.Container

/-!
Setting up a container. A mapping's policy is laid over the defaults as they are when the mapping is
added; what is done to the builder later reaches neither the mapping nor its policy.
-/
namespace Gateway.Upgrade

open Config (Overrides SessionConfig)
open Gateway.Path (Spec)

inductive Setup where
  | withDefaults (defaults : SessionConfig)
  | editDefaults (f : SessionConfig → SessionConfig)
  | addMapping (declaration : String) (creator : Creator) (o : Overrides)

namespace Setup

/-- The container after a step. A mapping that is refused leaves it as it was. -/
def apply (c : Container) : Setup → Container
  | .withDefaults defaults => { c with defaults }
  | .editDefaults f => { c with defaults := f c.defaults }
  | .addMapping declaration creator o =>
    match c.addMapping? declaration creator o with
    | .ok c' => c'
    | .error _ => c

/-- What a step does to the defaults, wherever they come from. -/
def edit (defaults : SessionConfig) : Setup → SessionConfig
  | .withDefaults defaults' => defaults'
  | .editDefaults f => f defaults
  | .addMapping _ _ _ => defaults

end Setup

namespace Container

variable {c : Container} {declaration : String} {creator : Creator} {o : Overrides} {s : Spec}
  {n : Negotiator}

/-- The container takes a mapping: it is declared, and its spec is new. -/
structure Takes (c : Container) (declaration : String) (s : Spec) : Prop where
  declared : Spec.parse declaration.toList = .ok s
  fresh : c.negotiators.get? s = none

/-- The builder after steps, and the defaults after the same steps. -/
def setUp (c : Container) (steps : List Setup) : Container := steps.foldl Setup.apply c

def defaultsAfter (defaults : SessionConfig) (steps : List Setup) : SessionConfig :=
  steps.foldl Setup.edit defaults

theorem register_eq_put (c : Container) (s : Spec) (creator : Creator) (o : Overrides) :
    (match c.register? s creator o with
      | .ok c' => c'
      | .error _ => c)
      = { c with negotiators := c.negotiators.put s ⟨s, creator, c.defaults.customized o⟩ } := by
  rw [register?, Path.Table.put]
  cases c.negotiators.insert? s ⟨s, creator, c.defaults.customized o⟩ with
  | none => rfl
  | some t => rfl

theorem apply_addMapping (c : Container) (declaration : String) (creator : Creator)
    (o : Overrides) : (Setup.addMapping declaration creator o).apply c
      = match Spec.parse declaration.toList with
        | .ok s => { c with
            negotiators := c.negotiators.put s ⟨s, creator, c.defaults.customized o⟩ }
        | .error _ => c := by
  rw [Setup.apply, addMapping?]
  cases Spec.parse declaration.toList with
  | error source => rfl
  | ok s => exact register_eq_put c s creator o

theorem defaults_apply (c : Container) (step : Setup) :
    (step.apply c).defaults = step.edit c.defaults := by
  cases step with
  | withDefaults | editDefaults => rfl
  | addMapping declaration creator o =>
      rw [apply_addMapping]
      split
      · rfl
      · rfl

theorem defaults_setUp (c : Container) (steps : List Setup) :
    (c.setUp steps).defaults = defaultsAfter c.defaults steps := by
  induction steps generalizing c with
  | nil => rfl
  | cons step rest ih => exact (ih (step.apply c)).trans (by rw [defaults_apply]; rfl)

/-- What a spec maps to once a step is done: what it mapped to before, or else what the step
adds. -/
theorem get?_apply_cases {step : Setup} (found : (step.apply c).negotiators.get? s = some n) :
    c.negotiators.get? s = some n ∨ ∃ declaration creator o,
      step = .addMapping declaration creator o ∧ c.Takes declaration s
        ∧ n = ⟨s, creator, c.defaults.customized o⟩ := by
  cases step with
  | withDefaults | editDefaults => exact .inl found
  | addMapping declaration creator o =>
      rw [apply_addMapping] at found
      cases parsed : Spec.parse declaration.toList with
      | error source =>
          rw [parsed] at found
          exact .inl found
      | ok t =>
          rw [parsed, Path.Table.get?_put] at found
          cases before : c.negotiators.get? s with
          | some m =>
              rw [before, Option.some_or] at found
              exact .inl found
          | none =>
              rw [before, Option.none_or] at found
              obtain ⟨rfl, same⟩ := Option.ite_none_right_eq_some.mp found
              exact .inr ⟨declaration, creator, o, rfl, ⟨parsed, before⟩,
                (Option.some.inj same).symm⟩

theorem get?_apply (found : c.negotiators.get? s = some n) (step : Setup) :
    (step.apply c).negotiators.get? s = some n := by
  cases step with
  | withDefaults | editDefaults => exact found
  | addMapping declaration creator o =>
      rw [apply_addMapping]
      split
      · rw [Path.Table.get?_put, found]
        rfl
      · exact found

theorem get?_setUp (found : c.negotiators.get? s = some n) (steps : List Setup) :
    (c.setUp steps).negotiators.get? s = some n := by
  induction steps generalizing c with
  | nil => exact found
  | cons step rest ih => exact ih (get?_apply found step)

theorem Takes.added (takes : c.Takes declaration s) (creator : Creator) (o : Overrides) :
    ((Setup.addMapping declaration creator o).apply c).negotiators.get? s
      = some ⟨s, creator, c.defaults.customized o⟩ := by
  rw [apply_addMapping, takes.declared]
  dsimp only
  rw [Path.Table.get?_put, takes.fresh, if_pos rfl]
  rfl

/-- One of the steps adds a mapping for a spec, at a moment when the defaults are these. -/
def Adds (c : Container) (steps : List Setup) (s : Spec) (creator : Creator) (o : Overrides)
    (defaults : SessionConfig) : Prop :=
  ∃ before declaration after, steps = before ++ .addMapping declaration creator o :: after
    ∧ (c.setUp before).Takes declaration s ∧ defaults = defaultsAfter c.defaults before

theorem adds_of_get?_setUp {steps : List Setup} (fresh : c.negotiators.get? s = none)
    (found : (c.setUp steps).negotiators.get? s = some n) :
    ∃ creator o defaults, c.Adds steps s creator o defaults
      ∧ n = ⟨s, creator, defaults.customized o⟩ := by
  induction steps generalizing c with
  | nil => exact absurd (fresh.symm.trans found) (by simp)
  | cons step rest ih =>
      cases now : (step.apply c).negotiators.get? s with
      | none =>
          obtain ⟨creator, o, defaults, ⟨before, declaration, after, rfl, takes, rfl⟩, rfl⟩ :=
            ih now found
          refine ⟨creator, o, _, ⟨step :: before, declaration, after, rfl, takes, ?_⟩, rfl⟩
          rw [defaults_apply]
          rfl
      | some m =>
          obtain rfl := Option.some.inj ((get?_setUp now rest).symm.trans found)
          rcases get?_apply_cases now with old | ⟨declaration, creator, o, rfl, takes, rfl⟩
          · exact absurd (fresh.symm.trans old) (by simp)
          · exact ⟨creator, o, c.defaults, ⟨[], declaration, rest, rfl, takes, rfl⟩, rfl⟩

/-- The mappings of a container: each was added by a step, over the defaults of that moment, and
what is done before and afterwards leaves it alone. -/
theorem get?_setUp_iff {steps : List Setup} (fresh : c.negotiators.get? s = none) :
    (c.setUp steps).negotiators.get? s = some n ↔ ∃ creator o defaults,
      c.Adds steps s creator o defaults ∧ n = ⟨s, creator, defaults.customized o⟩ := by
  refine ⟨adds_of_get?_setUp fresh, ?_⟩
  rintro ⟨creator, o, defaults, ⟨before, declaration, after, rfl, takes, rfl⟩, rfl⟩
  have added := takes.added creator o
  rw [defaults_setUp] at added
  rw [setUp, List.foldl_append]
  exact get?_setUp added after

theorem ordered_setUp (ordered : c.negotiators.Ordered) (steps : List Setup) :
    (c.setUp steps).negotiators.Ordered := by
  induction steps generalizing c with
  | nil => exact ordered
  | cons step rest ih =>
      refine ih (c := step.apply c) ?_
      cases step with
      | withDefaults | editDefaults => exact ordered
      | addMapping declaration creator o =>
          rw [apply_addMapping]
          cases parsed : Spec.parse declaration.toList with
          | error source => exact ordered
          | ok s => exact ordered.put ⟨_, parsed⟩ _

end Container
end Gateway.Upgrade
