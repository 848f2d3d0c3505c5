import Gateway.Upgrade.Creator

/-!
Policies in layers. Overrides are laid over a policy field by field, and so is what a creator does
to the policy of its response: the last act that writes a field decides it, and a field that no act
writes keeps the value from the layer below.
-/
namespace Gateway

namespace Config

inductive Field where
  | idleTimeoutSecs
  | inputBufferSize
  | outputBufferSize
  | maxTextMessageSize
  | maxBinaryMessageSize
  | maxFrameSize
  | autoFragment
  | role
  deriving DecidableEq, Repr

def Field.Value : Field → Type
  | .autoFragment => Bool
  | .role => Role
  | .idleTimeoutSecs | .inputBufferSize | .outputBufferSize | .maxTextMessageSize
  | .maxBinaryMessageSize | .maxFrameSize => Nat

def SessionConfig.get (c : SessionConfig) : (field : Field) → field.Value
  | .idleTimeoutSecs => c.idleTimeoutSecs
  | .inputBufferSize => c.inputBufferSize
  | .outputBufferSize => c.outputBufferSize
  | .maxTextMessageSize => c.maxTextMessageSize
  | .maxBinaryMessageSize => c.maxBinaryMessageSize
  | .maxFrameSize => c.maxFrameSize
  | .autoFragment => c.autoFragment
  | .role => c.role

/-- The value that overrides give to a field, if they set it. They never set the role. -/
def Overrides.get? (o : Overrides) : (field : Field) → Option field.Value
  | .idleTimeoutSecs => o.idleTimeoutSecs
  | .inputBufferSize => o.inputBufferSize
  | .outputBufferSize => o.outputBufferSize
  | .maxTextMessageSize => o.maxTextMessageSize
  | .maxBinaryMessageSize => o.maxBinaryMessageSize
  | .maxFrameSize => o.maxFrameSize
  | .autoFragment => o.autoFragment
  | .role => none

theorem SessionConfig.get_customized (c : SessionConfig) (o : Overrides) (field : Field) :
    (c.customized o).get field = (o.get? field).getD (c.get field) := by
  cases field with
  | idleTimeoutSecs | inputBufferSize | outputBufferSize | maxTextMessageSize
  | maxBinaryMessageSize | maxFrameSize | autoFragment | role => rfl

theorem SessionConfig.ext_get {c d : SessionConfig} (same : ∀ field, c.get field = d.get field) :
    c = d := by
  obtain ⟨idle, input, output, text, binary, frame, fragment, role⟩ := c
  obtain rfl : idle = _ := same .idleTimeoutSecs
  obtain rfl : input = _ := same .inputBufferSize
  obtain rfl : output = _ := same .outputBufferSize
  obtain rfl : text = _ := same .maxTextMessageSize
  obtain rfl : binary = _ := same .maxBinaryMessageSize
  obtain rfl : frame = _ := same .maxFrameSize
  obtain rfl : fragment = _ := same .autoFragment
  obtain rfl : role = _ := same .role
  rfl

end Config

namespace Upgrade

open Config (Field SessionConfig)

namespace CreatorAct

def laidOver (c : SessionConfig) : CreatorAct → SessionConfig
  | .customize o => c.customized o
  | .edit f => f c
  | _ => c

/-- An act writes a field when it overrides the field, or edits it in some policy at least. -/
def Writes (field : Field) : CreatorAct → Prop
  | .customize o => o.get? field ≠ none
  | .edit f => ∃ c, (f c).get field ≠ c.get field
  | _ => False

end CreatorAct

def layAll (c : SessionConfig) (acts : List CreatorAct) : SessionConfig :=
  acts.foldl CreatorAct.laidOver c

open Classical in
/-- What the last of the acts that write a field leaves in it. -/
noncomputable def lastWritten? (field : Field) (c : SessionConfig) :
    List CreatorAct → Option field.Value
  | [] => none
  | a :: rest => (lastWritten? field (a.laidOver c) rest).or
      (if a.Writes field then some ((a.laidOver c).get field) else none)

variable {field : Field} {c : SessionConfig} {acts : List CreatorAct}

theorem CreatorAct.get_laidOver {a : CreatorAct} (silent : ¬ a.Writes field) :
    (a.laidOver c).get field = c.get field := by
  cases a with
  | customize o =>
      have unset : o.get? field = none := Classical.not_not.mp silent
      rw [laidOver, c.get_customized, unset]
      rfl
  | edit f => exact Classical.not_not.mp fun changed => silent ⟨c, changed⟩
  | acceptSubprotocol | sendError | appendHeader | fire | note | call | pause | stall => rfl

theorem get_layAll :
    (layAll c acts).get field = (lastWritten? field c acts).getD (c.get field) := by
  induction acts generalizing c with
  | nil => rfl
  | cons a rest ih =>
      rw [layAll, List.foldl_cons, ← layAll, ih, lastWritten?]
      cases lastWritten? field (a.laidOver c) rest with
      | some v => rfl
      | none =>
          rw [Option.none_or]
          split
          · rfl
          · rename_i silent
            exact CreatorAct.get_laidOver silent

theorem lastWritten?_eq_none_iff :
    lastWritten? field c acts = none ↔ ∀ a ∈ acts, ¬ a.Writes field := by
  induction acts generalizing c with
  | nil => simp [lastWritten?]
  | cons a rest ih => simp [lastWritten?, ih, and_comm]

/-- A policy in layers, field by field: what was written last, or else the override, or else the
default. -/
theorem eq_layAll_iff {d : SessionConfig} {o : Config.Overrides} :
    c = layAll (d.customized o) acts ↔ ∀ field, c.get field
      = (lastWritten? field (d.customized o) acts).getD ((o.get? field).getD (d.get field)) := by
  have layered (field : Field) : (layAll (d.customized o) acts).get field
      = (lastWritten? field (d.customized o) acts).getD ((o.get? field).getD (d.get field)) := by
    rw [get_layAll, d.get_customized]
  constructor
  · rintro rfl field
    exact layered field
  · intro same
    exact SessionConfig.ext_get fun field => (same field).trans (layered field).symm

end Upgrade
end Gateway
