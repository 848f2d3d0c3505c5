import Gateway.Proofs.Startup.Mounting
import Mathlib.Data.List.TakeWhile

/-!
The rules of a configuration, apart from the check. A rule says what is asked for, and which error
tells that it is broken. The check reports the broken rules and nothing else: one error for each,
in the order of the rules. Main statement: `ServerConfig.errors_by_rule`.
-/
namespace Gateway.Config

open Gateway.Path (Spec)
open Startup (checkMappings_cons seenAfter)

/-! ### Rules -/

inductive Size where
  | inputBuffer
  | outputBuffer
  | textMessage
  | binaryMessage
  | frame
  deriving DecidableEq, Repr

namespace Size

def all : List Size := [.inputBuffer, .outputBuffer, .textMessage, .binaryMessage, .frame]

def field : Size → String
  | .inputBuffer => "input_buffer_size"
  | .outputBuffer => "output_buffer_size"
  | .textMessage => "max_text_message_size"
  | .binaryMessage => "max_binary_message_size"
  | .frame => "max_frame_size"

def of (p : SessionConfig) : Size → Nat
  | .inputBuffer => p.inputBufferSize
  | .outputBuffer => p.outputBufferSize
  | .textMessage => p.maxTextMessageSize
  | .binaryMessage => p.maxBinaryMessageSize
  | .frame => p.maxFrameSize

theorem mem_all (z : Size) : z ∈ all := by cases z <;> decide

theorem field_injective : Function.Injective field := by
  intro z z' same
  revert same
  cases z <;> cases z' <;> decide

end Size

inductive Scope where
  | common
  | mapping (index : Nat)
  deriving DecidableEq, Repr

/-- The name under which errors tell of a scope. -/
def Scope.label : Scope → String
  | .common => "websocket"
  | .mapping index => mappingScope index

theorem mappingScope_injective : Function.Injective mappingScope := by
  intro index index' same
  have digits : Nat.toDigits 10 index = Nat.toDigits 10 index' := by
    have texts : toString index = toString index' := (String.append_right_inj "mapping ").mp same
    rw [Nat.toString_eq_ofList_toDigits, Nat.toString_eq_ofList_toDigits] at texts
    exact String.ofList_injective texts
  rw [← Nat.ofDigitChars_ten_toDigits (n := index), digits, Nat.ofDigitChars_ten_toDigits]

theorem Scope.label_injective : Function.Injective Scope.label := by
  have apart (index : Nat) : "websocket" ≠ mappingScope index := by
    intro same
    have first := congrArg (·.toList.head?) same
    simp [mappingScope] at first
  intro scope scope' same
  cases scope with
  | common =>
      cases scope' with
      | common => rfl
      | mapping index => exact absurd same (apart index)
  | mapping index =>
      cases scope' with
      | common => exact absurd same.symm (apart index)
      | mapping index' =>
          rw [mappingScope_injective same]

inductive Rule where
  | listenerAddress
  | adminAddress
  | adminKey
  | metricsAddress
  | nonZero (scope : Scope) (size : Size)
  | frameFits (scope : Scope)
  | specParses (index : Nat)
  | specIsNew (index : Nat)
  | endpointKnown (index : Nat)
  deriving DecidableEq, Repr

namespace Rule

def ofSizes (scope : Scope) : List Rule := Size.all.map (.nonZero scope) ++ [.frameFits scope]

def ofServer : List Rule :=
  [.listenerAddress, .adminAddress, .adminKey, .metricsAddress] ++ ofSizes .common

def ofMapping (index : Nat) : List Rule :=
  [.specParses index, .specIsNew index, .endpointKnown index] ++ ofSizes (.mapping index)

def mapping? : Rule → Option Nat
  | .nonZero (.mapping index) _ | .frameFits (.mapping index) => some index
  | .specParses index | .specIsNew index | .endpointKnown index => some index
  | _ => none

theorem mem_ofSizes {r : Rule} {scope : Scope} :
    r ∈ ofSizes scope ↔ (∃ z, r = .nonZero scope z) ∨ r = .frameFits scope := by
  simp [ofSizes, Size.mem_all, eq_comm]

theorem mem_ofServer {r : Rule} : r ∈ ofServer ↔ r.mapping? = none := by
  rw [ofServer, List.mem_append, mem_ofSizes]
  cases r with
  | nonZero scope z | frameFits scope => cases scope <;> simp [mapping?]
  | _ => simp [mapping?]

theorem mem_ofMapping {r : Rule} {index : Nat} :
    r ∈ ofMapping index ↔ r.mapping? = some index := by
  rw [ofMapping, List.mem_append, mem_ofSizes]
  cases r with
  | nonZero scope z | frameFits scope => cases scope <;> simp [mapping?]
  | _ => simp [mapping?]

end Rule

/-- The rules of a configuration, in the order in which they are checked. -/
def ServerConfig.rules (c : ServerConfig) : List Rule :=
  Rule.ofServer ++ (List.range c.mappings.length).flatMap Rule.ofMapping

/-- The policies whose sizes are under rules: the common one, and each that differs from it. -/
inductive Checked (c : ServerConfig) : Scope → SessionConfig → Prop
  | common : Checked c .common c.websocket
  | mapping {index : Nat} {m : MappingConfig} : c.mappings[index]? = some m →
      c.websocket.customized m.overrides ≠ c.websocket →
      Checked c (.mapping index) (c.websocket.customized m.overrides)

/-- A mapping before an index has the spec. -/
def Earlier (c : ServerConfig) (index : Nat) (spec : Spec) : Prop :=
  ∃ j m, j < index ∧ c.mappings[j]? = some m ∧ Spec.parse m.pathSpec.toList = .ok spec

/-- The configuration breaks a rule, and this is the error that tells so. -/
inductive Breaks (c : ServerConfig) : Rule → ValidationError → Prop
  | listenerAddress : Net.SocketAddress.parse c.listener.bindAddress.toList = none →
      Breaks c .listenerAddress (.invalidAddress "listener.bind_address" c.listener.bindAddress)
  | adminAddress : c.admin.enabled = true →
      Net.SocketAddress.parse c.admin.bindAddress.toList = none →
      Breaks c .adminAddress (.invalidAddress "admin.bind_address" c.admin.bindAddress)
  | adminKey : c.admin.enabled = true →
      (∀ ch ∈ c.admin.apiKey.toList, Text.isBlank ch = true) →
      Breaks c .adminKey .missingAdminKey
  | metricsAddress : c.observability.metricsEnabled = true →
      Net.SocketAddress.parse c.observability.metricsAddress.toList = none →
      Breaks c .metricsAddress
        (.invalidAddress "observability.metrics_address" c.observability.metricsAddress)
  | nonZero {scope : Scope} {size : Size} {p : SessionConfig} : Checked c scope p →
      size.of p = 0 → Breaks c (.nonZero scope size) (.zeroSize scope.label size.field)
  | frameFits {scope : Scope} {p : SessionConfig} : Checked c scope p →
      max p.maxTextMessageSize p.maxBinaryMessageSize < p.maxFrameSize →
      Breaks c (.frameFits scope) (.frameExceedsMessage scope.label p.maxFrameSize
        (max p.maxTextMessageSize p.maxBinaryMessageSize))
  | specParses {index : Nat} {m : MappingConfig} {source : Path.SpecError} :
      c.mappings[index]? = some m → Spec.parse m.pathSpec.toList = .error source →
      Breaks c (.specParses index) (.invalidPathSpec index m.pathSpec source)
  | specIsNew {index : Nat} {m : MappingConfig} {spec : Spec} :
      c.mappings[index]? = some m → Spec.parse m.pathSpec.toList = .ok spec →
      Earlier c index spec → Breaks c (.specIsNew index) (.duplicatePathSpec index spec)
  | endpointKnown {index : Nat} {m : MappingConfig} : c.mappings[index]? = some m →
      m.endpoint ∉ knownEndpoints →
      Breaks c (.endpointKnown index) (.unknownEndpoint index m.endpoint)

/-- Errors tell of the broken rules of a list, one for each and in their order. -/
inductive Reported (c : ServerConfig) : List Rule → List ValidationError → Prop
  | nil : Reported c [] []
  | broken {r : Rule} {e : ValidationError} {rules : List Rule} {errors : List ValidationError} :
      Breaks c r e → Reported c rules errors → Reported c (r :: rules) (e :: errors)
  | kept {r : Rule} {rules : List Rule} {errors : List ValidationError} :
      (∀ e, ¬ Breaks c r e) → Reported c rules errors → Reported c (r :: rules) errors

variable {c : ServerConfig} {scope : Scope} {p p' : SessionConfig} {r r' : Rule}
  {e e' : ValidationError} {rules rules' : List Rule} {errors errors' : List ValidationError}

/-! ### One error for each broken rule -/

theorem Checked.unique (checked : Checked c scope p) (checked' : Checked c scope p') : p = p' := by
  cases checked with
  | common =>
      cases checked' with
      | common => rfl
  | mapping here _ =>
      cases checked' with
      | mapping here' _ => rw [Option.some.inj (here.symm.trans here')]

theorem Breaks.error_unique (breaks : Breaks c r e) (breaks' : Breaks c r e') : e = e' := by
  cases breaks with
  | listenerAddress _ | adminAddress _ _ | adminKey _ _ | metricsAddress _ _ | nonZero _ _ =>
      cases breaks'
      rfl
  | frameFits checked _ =>
      cases breaks' with
      | frameFits checked' _ => rw [checked.unique checked']
  | specParses here bad =>
      cases breaks' with
      | specParses here' bad' =>
          obtain rfl := Option.some.inj (here.symm.trans here')
          rw [Except.error.inj (bad.symm.trans bad')]
  | specIsNew here parsed _ =>
      cases breaks' with
      | specIsNew here' parsed' _ =>
          obtain rfl := Option.some.inj (here.symm.trans here')
          rw [Except.ok.inj (parsed.symm.trans parsed')]
  | endpointKnown here _ =>
      cases breaks' with
      | endpointKnown here' _ => rw [Option.some.inj (here.symm.trans here')]

def Tells : ValidationError → Rule → Prop
  | .invalidAddress field _, r =>
    (field = "listener.bind_address" ∧ r = .listenerAddress)
      ∨ (field = "admin.bind_address" ∧ r = .adminAddress)
      ∨ (field = "observability.metrics_address" ∧ r = .metricsAddress)
  | .missingAdminKey, r => r = .adminKey
  | .zeroSize label field, r => ∃ scope size, Scope.label scope = label ∧ Size.field size = field
      ∧ r = .nonZero scope size
  | .frameExceedsMessage label _ _, r => ∃ scope, Scope.label scope = label ∧ r = .frameFits scope
  | .invalidPathSpec index _ _, r => r = .specParses index
  | .duplicatePathSpec index _, r => r = .specIsNew index
  | .unknownEndpoint index _, r => r = .endpointKnown index

theorem Breaks.tells (breaks : Breaks c r e) : Tells e r := by
  cases breaks with
  | listenerAddress _ => exact .inl ⟨rfl, rfl⟩
  | adminAddress _ _ => exact .inr (.inl ⟨rfl, rfl⟩)
  | metricsAddress _ _ => exact .inr (.inr ⟨rfl, rfl⟩)
  | nonZero _ _ => exact ⟨_, _, rfl, rfl, rfl⟩
  | frameFits _ _ => exact ⟨_, rfl, rfl⟩
  | adminKey _ _ | specParses _ _ | specIsNew _ _ _ | endpointKnown _ _ => rfl

theorem Tells.unique (tells : Tells e r) (tells' : Tells e r') : r = r' := by
  cases e with
  | invalidAddress field value =>
      obtain ⟨rfl, rfl⟩ | ⟨rfl, rfl⟩ | ⟨rfl, rfl⟩ := tells <;> simpa [Tells, eq_comm] using tells'
  | zeroSize label field =>
      obtain ⟨scope, size, rfl, rfl, rfl⟩ := tells
      obtain ⟨scope', size', same, same', rfl⟩ := tells'
      rw [Scope.label_injective same, Size.field_injective same']
  | frameExceedsMessage label frame message =>
      obtain ⟨scope, rfl, rfl⟩ := tells
      obtain ⟨scope', same, rfl⟩ := tells'
      rw [Scope.label_injective same]
  | missingAdminKey | invalidPathSpec _ _ _ | duplicatePathSpec _ _ | unknownEndpoint _ _ =>
      exact tells.trans tells'.symm

theorem Breaks.rule_unique (breaks : Breaks c r e) (breaks' : Breaks c r' e) : r = r' :=
  breaks.tells.unique breaks'.tells

/-! ### The checks as lists of rules -/

namespace Reported

theorem append (first : Reported c rules errors) (second : Reported c rules' errors') :
    Reported c (rules ++ rules') (errors ++ errors') := by
  induction first with
  | nil => exact second
  | broken breaks _ ih => exact .broken breaks ih
  | kept holds _ ih => exact .kept holds ih

theorem of_kept (holds : ∀ r ∈ rules, ∀ e, ¬ Breaks c r e) : Reported c rules [] := by
  induction rules with
  | nil => exact .nil
  | cons r rest ih =>
      exact .kept (holds r List.mem_cons_self) (ih fun r' among => holds r' (.tail _ among))

theorem of_if {wrong : Prop} [Decidable wrong] (broken : wrong → Breaks c r e)
    (only : ∀ e, Breaks c r e → wrong) : Reported c [r] (if wrong then [e] else []) := by
  by_cases bad : wrong
  · rw [if_pos bad]
    exact .broken (broken bad) .nil
  · rw [if_neg bad]
    exact .kept (fun e breaks => bad (only e breaks)) .nil

theorem mem_iff (reported : Reported c rules errors) :
    e ∈ errors ↔ ∃ r ∈ rules, Breaks c r e := by
  induction reported with
  | nil => simp
  | @broken r e' rules errors breaks _ ih =>
      have here : Breaks c r e ↔ e = e' :=
        ⟨fun breaks' => breaks'.error_unique breaks, fun same => same ▸ breaks⟩
      simp [ih, here]
  | kept holds _ ih => simp [ih, holds]

/-- An error is reported once, because it tells of one rule only. -/
theorem nodup (reported : Reported c rules errors) (distinct : rules.Nodup) : errors.Nodup := by
  induction reported with
  | nil => exact .nil
  | broken breaks later ih =>
      obtain ⟨new, distinct⟩ := List.nodup_cons.mp distinct
      refine List.nodup_cons.mpr ⟨fun again => ?_, ih distinct⟩
      obtain ⟨r', among, breaks'⟩ := later.mem_iff.mp again
      exact new (breaks.rule_unique breaks' ▸ among)
  | kept _ _ ih => exact ih (List.nodup_cons.mp distinct).2

end Reported

theorem reported_address {field value : String}
    (broken : Net.SocketAddress.parse value.toList = none →
      Breaks c r (.invalidAddress field value))
    (only : ∀ e, Breaks c r e → Net.SocketAddress.parse value.toList = none) :
    Reported c [r] (checkAddress field value) := by
  rw [checkAddress]
  cases parsed : Net.SocketAddress.parse value.toList with
  | none => exact .broken (broken parsed) .nil
  | some address =>
      refine .kept (fun e breaks => ?_) .nil
      have unparsed := only e breaks
      rw [parsed] at unparsed
      exact absurd unparsed (by simp)

theorem isBlankText_iff (s : String) :
    isBlankText s = true ↔ ∀ ch ∈ s.toList, Text.isBlank ch = true := by
  rw [isBlankText, Text.trim, Text.trimBy, List.isEmpty_iff, List.reverse_eq_nil_iff,
    List.dropWhile_eq_nil_iff]
  refine ⟨fun rest ch among => ?_, fun blank ch among => ?_⟩
  · rw [← List.takeWhile_append_dropWhile (p := Text.isBlank) (l := s.toList)] at among
    rcases List.mem_append.mp among with taken | left
    · exact List.mem_takeWhile_imp taken
    · exact rest ch (List.mem_reverse.mpr left)
  · exact blank ch ((List.dropWhile_sublist _).mem (List.mem_reverse.mp among))

theorem reported_admin (c : ServerConfig) :
    Reported c [.adminAddress, .adminKey] (checkAdmin c.admin) := by
  rw [checkAdmin]
  by_cases enabled : c.admin.enabled = true
  · rw [if_pos enabled]
    have address : Reported c [.adminAddress]
        (checkAddress "admin.bind_address" c.admin.bindAddress) := by
      refine reported_address (.adminAddress enabled) fun e breaks => ?_
      cases breaks with
      | adminAddress _ unparsed => exact unparsed
    have key : Reported c [.adminKey]
        (if isBlankText c.admin.apiKey then [.missingAdminKey] else []) := by
      refine .of_if (fun blank => .adminKey enabled ((isBlankText_iff _).mp blank))
        fun e breaks => ?_
      cases breaks with
      | adminKey _ blank => exact (isBlankText_iff _).mpr blank
    exact address.append key
  · rw [if_neg enabled]
    refine .of_kept fun r among e breaks => ?_
    cases breaks with
    | adminAddress on _ | adminKey on _ => exact enabled on
    | _ => simp at among

theorem reported_metrics (c : ServerConfig) :
    Reported c [.metricsAddress] (checkMetrics c.observability) := by
  rw [checkMetrics]
  by_cases enabled : c.observability.metricsEnabled = true
  · rw [if_pos enabled]
    refine reported_address (.metricsAddress enabled) fun e breaks => ?_
    cases breaks with
    | metricsAddress _ unparsed => exact unparsed
  · rw [if_neg enabled]
    refine .kept (fun e breaks => ?_) .nil
    cases breaks with
    | metricsAddress on _ => exact enabled on

theorem sizes_eq (p : SessionConfig) : p.sizes = Size.all.map fun z => (z.field, z.of p) := rfl

theorem reported_sizes (checked : Checked c scope p) :
    Reported c (Rule.ofSizes scope) (checkSizes scope.label p) := by
  have one (z : Size) : Reported c [.nonZero scope z]
      (if z.of p = 0 then [.zeroSize scope.label z.field] else []) := by
    refine .of_if (.nonZero checked) fun e breaks => ?_
    cases breaks with
    | nonZero checked' zero => rwa [checked.unique checked']
  have each (zs : List Size) : Reported c (zs.map (.nonZero scope))
      ((zs.map fun z => (z.field, z.of p)).filterMap fun size =>
        if size.2 = 0 then some (.zeroSize scope.label size.1) else none) := by
    induction zs with
    | nil => exact .nil
    | cons z rest ih =>
        have split := (one z).append ih
        by_cases zero : z.of p = 0
        · simpa [zero] using split
        · simpa [zero] using split
  have fits : Reported c [.frameFits scope] (if p.maxMessageSize < p.maxFrameSize then
      [.frameExceedsMessage scope.label p.maxFrameSize p.maxMessageSize] else []) := by
    refine .of_if (.frameFits checked) fun e breaks => ?_
    cases breaks with
    | frameFits checked' larger => rwa [checked.unique checked']
  rw [checkSizes, sizes_eq]
  exact (each Size.all).append fits

/-- The sizes of a mapping whose policy is the common one are under no rules. -/
theorem reported_merged {index : Nat} {m : MappingConfig} (here : c.mappings[index]? = some m) :
    Reported c (Rule.ofSizes (.mapping index)) (checkMerged index c.websocket m.overrides) := by
  rw [checkMerged]
  by_cases same : c.websocket.customized m.overrides = c.websocket
  · rw [if_pos same]
    have unchecked (p : SessionConfig) : ¬ Checked c (.mapping index) p := by
      intro checked
      cases checked with
      | mapping here' differs => exact differs (Option.some.inj (here.symm.trans here') ▸ same)
    refine .of_kept fun r among e breaks => ?_
    obtain ⟨z, rfl⟩ | rfl := Rule.mem_ofSizes.mp among
    · cases breaks with
      | nonZero checked _ => exact unchecked _ checked
    · cases breaks with
      | frameFits checked _ => exact unchecked _ checked
  · rw [if_neg same]
    exact reported_sizes (.mapping here same)

theorem reported_endpoint {index : Nat} {m : MappingConfig}
    (here : c.mappings[index]? = some m) :
    Reported c [.endpointKnown index] (checkEndpoint index m.endpoint) := by
  rw [checkEndpoint, ← ite_not]
  refine .of_if (.endpointKnown here) fun e breaks => ?_
  cases breaks with
  | endpointKnown here' unknown => rwa [Option.some.inj (here.symm.trans here')]

/-! ### Mappings -/

/-- One mapping: its spec, its endpoint, its own policy. What has been seen are the specs of the
mappings before it. -/
theorem reported_mapping {index : Nat} {m : MappingConfig} {seen : List Spec}
    (here : c.mappings[index]? = some m) (earlier : ∀ spec, spec ∈ seen ↔ Earlier c index spec) :
    Reported c (Rule.ofMapping index) (checkMappings c.websocket seen index [m]) := by
  have rules := (reported_endpoint here).append (reported_merged here)
  rw [checkMappings]
  cases parsed : Spec.parse m.pathSpec.toList with
  | error source =>
      simp only [checkMappings, List.append_nil]
      refine .broken (.specParses here parsed) (.kept (fun e breaks => ?_) rules)
      cases breaks with
      | specIsNew here' parsed' _ =>
          obtain rfl := Option.some.inj (here.symm.trans here')
          exact absurd (parsed.symm.trans parsed') (by simp)
  | ok spec =>
      simp only [checkMappings, List.append_nil]
      have fresh : Reported c [.specIsNew index]
          (if spec ∈ seen then [.duplicatePathSpec index spec] else []) := by
        refine .of_if (fun old => .specIsNew here parsed ((earlier spec).mp old))
          fun e breaks => ?_
        cases breaks with
        | specIsNew here' parsed' old =>
            obtain rfl := Option.some.inj (here.symm.trans here')
            obtain rfl := Except.ok.inj (parsed.symm.trans parsed')
            exact (earlier spec).mpr old
      refine .kept (fun e breaks => ?_) (fresh.append rules)
      cases breaks with
      | specParses here' bad =>
          obtain rfl := Option.some.inj (here.symm.trans here')
          exact absurd (parsed.symm.trans bad) (by simp)

theorem earlier_succ {index : Nat} {m : MappingConfig} {seen : List Spec}
    (here : c.mappings[index]? = some m) (earlier : ∀ spec, spec ∈ seen ↔ Earlier c index spec)
    (spec : Spec) : spec ∈ seenAfter seen m ↔ Earlier c (index + 1) spec := by
  have own : spec ∈ (Spec.parse m.pathSpec.toList).toOption.toList
      ↔ Spec.parse m.pathSpec.toList = .ok spec := by
    cases Spec.parse m.pathSpec.toList with
    | error source => simp [Except.toOption]
    | ok spec' => simp [Except.toOption, eq_comm]
  rw [seenAfter, List.mem_append, own, earlier]
  constructor
  · rintro (parsed | ⟨j, m', before, there, parsed⟩)
    · exact ⟨index, m, Nat.lt_succ_self index, here, parsed⟩
    · exact ⟨j, m', Nat.lt_succ_of_lt before, there, parsed⟩
  · rintro ⟨j, m', before, there, parsed⟩
    rcases Nat.lt_or_eq_of_le (Nat.le_of_lt_succ before) with before | rfl
    · exact .inr ⟨j, m', before, there, parsed⟩
    · obtain rfl := Option.some.inj (here.symm.trans there)
      exact .inl parsed

theorem reported_mappings {index : Nat} {ms : List MappingConfig} {seen : List Spec}
    (left : c.mappings.drop index = ms) (earlier : ∀ spec, spec ∈ seen ↔ Earlier c index spec) :
    Reported c ((List.range' index ms.length).flatMap Rule.ofMapping)
      (checkMappings c.websocket seen index ms) := by
  -- On the mappings that are left; what has been seen grows with the index.
  induction ms generalizing index seen with
  | nil => exact .nil
  | cons m rest ih =>
      have here : c.mappings[index]? = some m := by
        rw [← List.head?_drop, left]
        rfl
      have after : c.mappings.drop (index + 1) = rest := by
        rw [← List.tail_drop, left]
        rfl
      rw [checkMappings_cons]
      exact (reported_mapping here earlier).append (ih after (earlier_succ here earlier))

/-! ### Whole configurations -/

theorem reported_errors (c : ServerConfig) : Reported c c.rules c.errors := by
  have listener : Reported c [.listenerAddress]
      (checkAddress "listener.bind_address" c.listener.bindAddress) := by
    refine reported_address .listenerAddress fun e breaks => ?_
    cases breaks with
    | listenerAddress unparsed => exact unparsed
  have mappings : Reported c ((List.range c.mappings.length).flatMap Rule.ofMapping)
      (checkMappings c.websocket [] 0 c.mappings) := by
    rw [List.range_eq_range']
    refine reported_mappings rfl fun spec => ⟨nofun, ?_⟩
    rintro ⟨j, m, before, -⟩
    exact absurd before (Nat.not_lt_zero j)
  have addresses := (listener.append (reported_admin c)).append (reported_metrics c)
  exact (addresses.append (reported_sizes .common)).append mappings

theorem ServerConfig.nodup_rules (c : ServerConfig) : c.rules.Nodup := by
  have server : Rule.ofServer.Nodup := by decide
  have mapping (index : Nat) : (Rule.ofMapping index).Nodup := by
    simp [Rule.ofMapping, Rule.ofSizes, Size.all]
  have mappings : ((List.range c.mappings.length).flatMap Rule.ofMapping).Nodup := by
    refine List.pairwise_flatMap.mpr ⟨fun index _ => mapping index, ?_⟩
    refine List.nodup_range.imp fun {i j} differ r here r' there => ?_
    rintro rfl
    rw [Rule.mem_ofMapping] at here there
    exact differ (Option.some.inj (here.symm.trans there))
  refine List.nodup_append.mpr ⟨server, mappings, fun r early r' late => ?_⟩
  rintro rfl
  obtain ⟨index, -, here⟩ := List.mem_flatMap.mp late
  rw [Rule.mem_ofMapping, Rule.mem_ofServer.mp early] at here
  exact absurd here (by simp)

theorem ServerConfig.mem_rules :
    r ∈ c.rules ↔ ∀ index, r.mapping? = some index → index < c.mappings.length := by
  rw [rules, List.mem_append, Rule.mem_ofServer, List.mem_flatMap]
  simp only [Rule.mem_ofMapping, List.mem_range]
  cases r.mapping? with
  | none => simp
  | some index => simp

theorem Checked.lt_length {index : Nat} (checked : Checked c (.mapping index) p) :
    index < c.mappings.length := by
  cases checked with
  | mapping here _ => exact (List.getElem?_eq_some_iff.mp here).1

theorem Breaks.mem_rules (breaks : Breaks c r e) : r ∈ c.rules := by
  refine ServerConfig.mem_rules.mpr fun index about => ?_
  cases breaks with
  | @nonZero scope _ _ checked _ | @frameFits scope _ checked _ =>
      cases scope with
      | common => exact absurd about (by simp [Rule.mapping?])
      | mapping i => exact Option.some.inj about ▸ checked.lt_length
  | specParses here _ | specIsNew here _ _ | endpointKnown here _ =>
      exact Option.some.inj about ▸ (List.getElem?_eq_some_iff.mp here).1
  | _ => exact absurd about (by simp [Rule.mapping?])

/-- Where no rule is broken, the sizes of every policy under rules are sound. -/
theorem Checked.sound (checked : Checked c scope p) (valid : ∀ r e, ¬ Breaks c r e) :
    (∀ z : Size, 0 < z.of p) ∧ p.maxFrameSize ≤ max p.maxTextMessageSize p.maxBinaryMessageSize :=
  ⟨fun _ => Nat.pos_of_ne_zero fun zero => valid _ _ (.nonZero checked zero),
    Nat.le_of_not_lt fun larger => valid _ _ (.frameFits checked larger)⟩

theorem checked_merged {m : MappingConfig} (among : m ∈ c.mappings) :
    ∃ scope, Checked c scope (c.websocket.customized m.overrides) := by
  obtain ⟨index, here⟩ := List.mem_iff_getElem?.mp among
  by_cases same : c.websocket.customized m.overrides = c.websocket
  · rw [same]
    exact ⟨.common, .common⟩
  · exact ⟨.mapping index, .mapping here same⟩

theorem ServerConfig.mem_errors : e ∈ c.errors ↔ ∃ r, Breaks c r e := by
  rw [(reported_errors c).mem_iff]
  exact ⟨fun ⟨r, _, breaks⟩ => ⟨r, breaks⟩, fun ⟨r, breaks⟩ => ⟨r, breaks.mem_rules, breaks⟩⟩

theorem ServerConfig.errors_eq_nil : c.errors = [] ↔ ∀ r e, ¬ Breaks c r e := by
  simp only [List.eq_nil_iff_forall_not_mem, mem_errors, not_exists]
  exact ⟨fun valid r e => valid e r, fun valid e r => valid r e⟩

/-- The check reports exactly the broken rules: one error for each, in the order of the rules, and
no error twice. A configuration without errors breaks no rule, so the sizes of every mapping's
policy are sound. -/
theorem ServerConfig.errors_by_rule (c : ServerConfig) :
    Reported c c.rules c.errors ∧ c.rules.Nodup ∧ c.errors.Nodup
      ∧ (∀ e, e ∈ c.errors ↔ ∃ r, Breaks c r e)
      ∧ (∀ r e, Breaks c r e → r ∈ c.rules ∧ ∀ r' e', Breaks c r' e' → (r' = r ↔ e' = e))
      ∧ (c.errors = [] ↔ ∀ r e, ¬ Breaks c r e)
      ∧ (c.errors = [] → ∀ m ∈ c.mappings,
        (∀ z : Size, 0 < z.of (c.websocket.customized m.overrides))
          ∧ (c.websocket.customized m.overrides).maxFrameSize
            ≤ max (c.websocket.customized m.overrides).maxTextMessageSize
              (c.websocket.customized m.overrides).maxBinaryMessageSize) := by
  have reported := reported_errors c
  refine ⟨reported, c.nodup_rules, reported.nodup c.nodup_rules, fun e => mem_errors, ?_,
    errors_eq_nil, ?_⟩
  · intro r e breaks
    refine ⟨breaks.mem_rules, fun r' e' breaks' => ⟨?_, ?_⟩⟩
    · rintro rfl
      exact breaks'.error_unique breaks
    · rintro rfl
      exact breaks'.rule_unique breaks
  · intro valid m among
    obtain ⟨scope, checked⟩ := checked_merged among
    exact checked.sound (errors_eq_nil.mp valid)

/-- A blank key, and a second mapping in which three rules are broken; without them, a mapping with
a policy of its own. -/
theorem ServerConfig.errors_by_rule_for_two_mappings :
    (let first : MappingConfig :=
        { pathSpec := "/echo", endpoint := "echo", overrides := { maxFrameSize := some 512 } }
      let second : MappingConfig :=
        { pathSpec := "/echo", endpoint := "none", overrides := { maxFrameSize := some 0 } }
      let bad : ServerConfig :=
        { admin := { enabled := true, apiKey := " " }, mappings := [first, second] }
      let good : ServerConfig := { mappings := [first] }
      bad.errors = [.missingAdminKey, .duplicatePathSpec 1 (.exact "/echo".toList),
          .unknownEndpoint 1 "none", .zeroSize "mapping 1" "max_frame_size"]
        ∧ Breaks bad (.nonZero (.mapping 1) .frame) (.zeroSize "mapping 1" "max_frame_size")
        ∧ (∀ e, Breaks bad (.nonZero (.mapping 1) .frame) e →
          e = .zeroSize "mapping 1" "max_frame_size")
        ∧ good.errors = [] ∧ 0 < Size.frame.of (good.websocket.customized first.overrides)) := by
  intro first second bad good
  have broken : Breaks bad (.nonZero (.mapping 1) .frame)
      (.zeroSize "mapping 1" "max_frame_size") :=
    .nonZero (p := bad.websocket.customized second.overrides) (.mapping rfl (by decide)) rfl
  have valid : good.errors = [] := by decide +kernel
  obtain ⟨-, -, -, -, one, -, -⟩ := errors_by_rule bad
  obtain ⟨-, -, -, -, -, -, sound⟩ := errors_by_rule good
  refine ⟨by decide +kernel, broken, fun e breaks => ?_, valid, ?_⟩
  · exact ((one _ _ broken).2 _ _ breaks).mp rfl
  · exact (sound valid first List.mem_cons_self).1 .frame

end Gateway.Config
