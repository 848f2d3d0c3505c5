import Gateway.Config.Validation
import Gateway.Proofs.Path.Table
import Gateway.Startup

/-!
Checking a configuration against starting from it. The two go through the mappings on their own:
the check reports everything that is wrong, the start stops at the first mapping it cannot have.
They agree, because up to that mapping the specs that the check has seen are the specs that the
start has registered.
-/
namespace Gateway

/-- The mapping that an error names. Errors about addresses, the key and sizes name none. -/
def Config.ValidationError.index? : Config.ValidationError → Option Nat
  | .invalidPathSpec index _ _ | .duplicatePathSpec index _ | .unknownEndpoint index _ => some index
  | .zeroSize _ _ | .frameExceedsMessage _ _ _ | .missingAdminKey | .invalidAddress _ _ => none

def StartupError.index : StartupError → Nat
  | .unknownEndpoint index _ | .mapping index _ => index

namespace Startup

open Config (MappingConfig ServerConfig SessionConfig ValidationError)
open Gateway.Path (Spec)
open Upgrade (Container Creator Negotiator)

variable {registry index : Nat} {common : SessionConfig} {m : MappingConfig} {c : Container}
  {s : Spec} {n : Negotiator} {seen : List Spec} {v : ValidationError}

/-- What a mapping becomes in the table, if its spec can be read and its endpoint is known. -/
def row? (registry : Nat) (common : SessionConfig) (m : MappingConfig) :
    Option (Spec × Negotiator) :=
  match Spec.parse m.pathSpec.toList, Creator.named? m.endpoint registry with
  | .ok spec, some creator =>
    some (spec, { spec, creator, config := common.customized m.overrides })
  | _, _ => none

theorem row?_eq_some : row? registry common m = some (s, n) ↔
    Spec.parse m.pathSpec.toList = .ok s ∧ n.spec = s
      ∧ Creator.named? m.endpoint registry = some n.creator
      ∧ n.config = common.customized m.overrides := by
  obtain ⟨spec, creator, config⟩ := n
  rw [row?]
  cases Spec.parse m.pathSpec.toList with
  | error e => simp
  | ok spec' =>
      cases Creator.named? m.endpoint registry with
      | none => simp
      | some creator' => grind

theorem named?_isSome (name : String) (registry : Nat) :
    (Creator.named? name registry).isSome = true ↔ name ∈ Config.knownEndpoints := by
  rw [Creator.named?, Config.knownEndpoints]
  by_cases echo : name = "echo"
  · simp [echo]
  · by_cases chat : name = "chat"
    · simp [chat]
    · simp [echo, chat]

/-! ### One mapping -/

theorem addMapping_of_row (row : row? registry c.defaults m = some (s, n))
    (fresh : c.negotiators.get? s = none) : addMapping registry index c m
      = .ok ({ c with negotiators := c.negotiators.put s n }, s) := by
  obtain ⟨parsed, rfl, named, config⟩ := row?_eq_some.mp row
  obtain ⟨spec, creator, policy⟩ := n
  obtain ⟨taken, left⟩ := Path.Table.insert?_of_absent fresh (v := ⟨spec, creator, policy⟩)
  dsimp only at parsed named config fresh
  subst config
  rw [addMapping, named, parsed]
  simp only [Container.register?, taken, left]

theorem addMapping_of_no_row (index : Nat)
    (bad : ∀ s n, row? registry c.defaults m = some (s, n) → c.negotiators.get? s ≠ none) :
    ∃ e, addMapping registry index c m = .error e ∧ e.index = index := by
  rw [addMapping]
  cases named : Creator.named? m.endpoint registry with
  | none => exact ⟨_, rfl, rfl⟩
  | some creator =>
      cases parsed : Spec.parse m.pathSpec.toList with
      | error source => exact ⟨_, rfl, rfl⟩
      | ok spec =>
          have taken : c.negotiators.get? spec ≠ none :=
            bad spec ⟨spec, creator, c.defaults.customized m.overrides⟩
              (row?_eq_some.mpr ⟨parsed, rfl, named, rfl⟩)
          obtain ⟨w, present⟩ := Option.ne_none_iff_exists'.mp taken
          obtain ⟨refused, -⟩ := Path.Table.insert?_of_present present
            (v := ⟨spec, creator, c.defaults.customized m.overrides⟩)
          exact ⟨.mapping index (.duplicate spec), by simp only [Container.register?, refused], rfl⟩

theorem index?_checkSizes {scope : String} (among : v ∈ Config.checkSizes scope common) :
    v.index? = none := by
  rcases List.mem_append.mp among with zero | exceeds
  · obtain ⟨⟨field, size⟩, -, made⟩ := List.mem_filterMap.mp zero
    dsimp only at made
    split at made
    · rw [← Option.some.inj made]
      rfl
    · exact absurd made (by simp)
  · split at exceeds
    · rw [List.mem_singleton.mp exceeds]
      rfl
    · exact absurd exceeds List.not_mem_nil

theorem index?_checkMerged {o : Config.Overrides} (among : v ∈ Config.checkMerged index common o) :
    v.index? = none := by
  rw [Config.checkMerged] at among
  split at among
  · exact absurd among List.not_mem_nil
  · exact index?_checkSizes among

def seenAfter (seen : List Spec) (m : MappingConfig) : List Spec :=
  (Spec.parse m.pathSpec.toList).toOption.toList ++ seen

theorem checkMappings_cons (rest : List MappingConfig) :
    Config.checkMappings common seen index (m :: rest) = Config.checkMappings common seen index [m]
      ++ Config.checkMappings common (seenAfter seen m) (index + 1) rest := by
  rw [Config.checkMappings, Config.checkMappings, seenAfter]
  cases Spec.parse m.pathSpec.toList with
  | error source => simp [Config.checkMappings, Except.toOption]
  | ok spec => simp [Config.checkMappings, Except.toOption]

theorem index?_rules (common : SessionConfig) (index : Nat) (endpoint : String)
    (o : Config.Overrides) :
    (∀ v ∈ Config.checkEndpoint index endpoint ++ Config.checkMerged index common o,
        v.index? = none ∨ v.index? = some index)
      ∧ ((∃ v ∈ Config.checkEndpoint index endpoint ++ Config.checkMerged index common o,
        v.index? = some index) ↔ endpoint ∉ Config.knownEndpoints) := by
  have merged {v : ValidationError} (among : v ∈ Config.checkMerged index common o) :
      v.index? = none := index?_checkMerged among
  rw [Config.checkEndpoint]
  by_cases known : endpoint ∈ Config.knownEndpoints
  · rw [if_pos known, List.nil_append]
    refine ⟨fun v among => .inl (merged among), ?_, fun unknown => absurd known unknown⟩
    rintro ⟨v, among, named⟩
    rw [merged among] at named
    exact absurd named (by simp)
  · rw [if_neg known]
    refine ⟨?_, fun _ => known, fun _ => ⟨_, List.mem_cons_self, rfl⟩⟩
    intro v among
    rcases List.mem_cons.mp among with rfl | among
    · exact .inr rfl
    · exact .inl (merged among)

/-- What is wrong with one mapping names this mapping or none, and names it just when the mapping
has no row, or has one whose spec has been seen. -/
theorem index?_checkMapping (registry : Nat) (common : SessionConfig) (seen : List Spec)
    (index : Nat) (m : MappingConfig) :
    (∀ v ∈ Config.checkMappings common seen index [m], v.index? = none ∨ v.index? = some index)
      ∧ ((∃ v ∈ Config.checkMappings common seen index [m], v.index? = some index)
        ↔ ∀ s n, row? registry common m = some (s, n) → s ∈ seen) := by
  obtain ⟨mine, unknown⟩ := index?_rules common index m.endpoint m.overrides
  have known_iff := named?_isSome m.endpoint registry
  rw [Config.checkMappings]
  generalize Config.checkEndpoint index m.endpoint
    ++ Config.checkMerged index common m.overrides = rules at mine unknown ⊢
  cases parsed : Spec.parse m.pathSpec.toList with
  | error source =>
      simp only [Config.checkMappings, List.append_nil]
      refine ⟨?_, fun _ s n row => ?_, fun _ => ⟨_, List.mem_cons_self, rfl⟩⟩
      · intro v among
        rcases List.mem_cons.mp among with rfl | among
        · exact .inr rfl
        · exact mine v among
      · rw [row?, parsed] at row
        exact absurd row (by simp)
  | ok spec =>
      simp only [Config.checkMappings, List.append_nil]
      by_cases old : spec ∈ seen
      · rw [if_pos old]
        refine ⟨?_, fun _ s n row => ?_, fun _ => ⟨_, List.mem_cons_self, rfl⟩⟩
        · intro v among
          rcases List.mem_cons.mp among with rfl | among
          · exact .inr rfl
          · exact mine v among
        · obtain ⟨same, -⟩ := row?_eq_some.mp row
          rw [parsed] at same
          rwa [← Except.ok.inj same]
      · rw [if_neg old, List.nil_append, unknown]
        refine ⟨mine, fun none_known s n row => ?_, fun all_seen known => ?_⟩
        · obtain ⟨-, -, named, -⟩ := row?_eq_some.mp row
          exact absurd (known_iff.mp (by rw [named]; rfl)) none_known
        · obtain ⟨creator, named⟩ := Option.isSome_iff_exists.mp (known_iff.mpr known)
          exact old (all_seen spec ⟨spec, creator, common.customized m.overrides⟩
            (row?_eq_some.mpr ⟨parsed, rfl, named, rfl⟩))

/-! ### All mappings -/

theorem le_index?_checkMappings {ms : List MappingConfig} {i : Nat}
    (among : v ∈ Config.checkMappings common seen index ms) (named : v.index? = some i) :
    index ≤ i := by
  induction ms generalizing seen index with
  | nil => exact absurd among List.not_mem_nil
  | cons m rest ih =>
      rw [checkMappings_cons] at among
      rcases List.mem_append.mp among with here | later
      · rcases (index?_checkMapping 0 common seen index m).1 v here with silent | own
        · rw [silent] at named
          exact absurd named (by simp)
        · rw [own] at named
          exact Nat.le_of_eq (Option.some.inj named)
      · exact Nat.le_of_succ_le (ih later)

/-- Check and start agree from an index on, if the specs seen are the specs registered. -/
theorem addMappings_agrees (registry : Nat) (c : Container) (seen : List Spec) (index : Nat)
    (ms : List MappingConfig) (same : ∀ s, s ∈ seen ↔ c.negotiators.get? s ≠ none) :
    match (addMappings registry index c ms).2 with
    | .ok _ => ∀ v ∈ Config.checkMappings c.defaults seen index ms, v.index? = none
    | .error e =>
      (∃ v ∈ Config.checkMappings c.defaults seen index ms, v.index? = some e.index)
        ∧ ∀ v ∈ Config.checkMappings c.defaults seen index ms, ∀ i, v.index? = some i →
          e.index ≤ i := by
  -- On the mappings that are left. A mapping that can be had adds its spec on both sides; at the
  -- first that cannot, the start has ended and the check goes on with larger indices.
  induction ms generalizing c seen index with
  | nil => exact fun v among => absurd among List.not_mem_nil
  | cons m rest ih =>
      obtain ⟨mine, wrong⟩ := index?_checkMapping registry c.defaults seen index m
      rw [addMappings]
      by_cases good : ∃ s n, row? registry c.defaults m = some (s, n)
          ∧ c.negotiators.get? s = none
      · obtain ⟨s, n, row, fresh⟩ := good
        have right (v : ValidationError)
            (among : v ∈ Config.checkMappings c.defaults seen index [m]) : v.index? = none := by
          refine (mine v among).resolve_right fun named => ?_
          exact (same s).mp (wrong.mp ⟨v, among, named⟩ s n row) fresh
        have after : ∀ s', s' ∈ seenAfter seen m ↔ (c.negotiators.put s n).get? s' ≠ none := by
          intro s'
          obtain ⟨parsed, -⟩ := row?_eq_some.mp row
          have new : s' ∈ seenAfter seen m ↔ s' = s ∨ s' ∈ seen := by
            simp [seenAfter, parsed, Except.toOption]
          rw [new, same, Path.Table.get?_put]
          by_cases own : s = s'
          · simp [own]
          · simp [own, Ne.symm own]
        have rest_agrees := ih { c with negotiators := c.negotiators.put s n } (seenAfter seen m)
          (index + 1) after
        rw [addMapping_of_row row fresh, checkMappings_cons]
        dsimp only at rest_agrees ⊢
        generalize (addMappings registry (index + 1)
          { c with negotiators := c.negotiators.put s n } rest).2 = result at rest_agrees ⊢
        cases result with
        | ok c' =>
            intro v among
            rcases List.mem_append.mp among with here | later
            · exact right v here
            · exact rest_agrees v later
        | error e =>
            obtain ⟨⟨v, among, named⟩, least⟩ := rest_agrees
            refine ⟨⟨v, List.mem_append_right _ among, named⟩, ?_⟩
            intro v among i named
            rcases List.mem_append.mp among with here | later
            · rw [right v here] at named
              exact absurd named (by simp)
            · exact least v later i named
      · have bad : ∀ s n, row? registry c.defaults m = some (s, n) →
            c.negotiators.get? s ≠ none :=
          fun s n row fresh => good ⟨s, n, row, fresh⟩
        obtain ⟨e, failed, own⟩ := addMapping_of_no_row index bad
        rw [failed]
        obtain ⟨v, among, named⟩ := wrong.mpr fun s n row => (same s).mpr (bad s n row)
        rw [← own] at named
        refine ⟨⟨v, ?_, named⟩, ?_⟩
        · rw [checkMappings_cons]
          exact List.mem_append_left _ among
        · intro v among i named
          rw [own]
          exact le_index?_checkMappings among named

/-! ### The table of a configuration -/

def rows (registry : Nat) (common : SessionConfig) (ms : List MappingConfig) :
    List (Spec × Negotiator) := ms.filterMap (row? registry common)

/-- Every mapping has a row, and no two have one for the same spec. -/
structure Mountable (registry : Nat) (common : SessionConfig) (ms : List MappingConfig) : Prop where
  row : ∀ m ∈ ms, ∃ e, row? registry common m = some e
  distinct : ((rows registry common ms).map Prod.fst).Nodup

theorem Mountable.perm {ms ms' : List MappingConfig} (mountable : Mountable registry common ms)
    (perm : ms'.Perm ms) : Mountable registry common ms' where
  row m among := mountable.row m (perm.mem_iff.mp among)
  distinct := ((perm.filterMap _).map Prod.fst).nodup_iff.mpr mountable.distinct

theorem declared_rows (registry : Nat) (common : SessionConfig) (ms : List MappingConfig) :
    ∀ e ∈ rows registry common ms, e.1.Declared := by
  rintro ⟨s, n⟩ among
  obtain ⟨m, -, row⟩ := List.mem_filterMap.mp among
  exact ⟨_, (row?_eq_some.mp row).1⟩

theorem addMappings_of_rows {ms : List MappingConfig} (index : Nat)
    (mountable : Mountable registry c.defaults ms)
    (fresh : ∀ e ∈ rows registry c.defaults ms, c.negotiators.get? e.1 = none) :
    (addMappings registry index c ms).2
      = .ok { c with negotiators := c.negotiators.putAll (rows registry c.defaults ms) } := by
  induction ms generalizing c index with
  | nil => rfl
  | cons m rest ih =>
      obtain ⟨⟨s, n⟩, row⟩ := mountable.row m List.mem_cons_self
      have split : rows registry c.defaults (m :: rest)
          = (s, n) :: rows registry c.defaults rest := List.filterMap_cons_some row
      have distinct := mountable.distinct
      rw [split] at distinct fresh ⊢
      obtain ⟨apart, later⟩ := List.pairwise_cons.mp distinct
      have here : c.negotiators.get? s = none := fresh _ List.mem_cons_self
      rw [addMappings, addMapping_of_row row here]
      refine ih (index + 1) ⟨fun m among => mountable.row m (List.mem_cons_of_mem _ among), later⟩
        ?_
      intro e among
      have differ : s ≠ e.1 := apart e.1 (List.mem_map_of_mem among)
      rw [Path.Table.get?_put, fresh e (List.mem_cons_of_mem _ among), if_neg differ]
      rfl

theorem mountable_of_checked (registry : Nat) {ms : List MappingConfig}
    (checked : ∀ v ∈ Config.checkMappings common seen index ms, v.index? = none) :
    Mountable registry common ms ∧ ∀ e ∈ rows registry common ms, e.1 ∉ seen := by
  induction ms generalizing seen index with
  | nil => exact ⟨⟨nofun, .nil⟩, fun e among => absurd among List.not_mem_nil⟩
  | cons m rest ih =>
      rw [checkMappings_cons] at checked
      obtain ⟨mountable, unseen⟩ := ih fun v among => checked v (List.mem_append_right _ among)
      obtain ⟨-, wrong⟩ := index?_checkMapping registry common seen index m
      have right : ¬ ∀ s n, row? registry common m = some (s, n) → s ∈ seen := by
        intro all_seen
        obtain ⟨v, among, named⟩ := wrong.mpr all_seen
        rw [checked v (List.mem_append_left _ among)] at named
        exact absurd named (by simp)
      simp only [Classical.not_forall, exists_prop] at right
      obtain ⟨s, n, row, new⟩ := right
      have split : rows registry common (m :: rest) = (s, n) :: rows registry common rest :=
        List.filterMap_cons_some row
      have after : seenAfter seen m = s :: seen := by
        rw [seenAfter, (row?_eq_some.mp row).1]
        rfl
      rw [after] at unseen
      refine ⟨⟨?_, ?_⟩, ?_⟩
      · intro m' among
        rcases List.mem_cons.mp among with rfl | among
        · exact ⟨_, row⟩
        · exact mountable.row m' among
      · rw [split]
        refine List.pairwise_cons.mpr ⟨?_, mountable.distinct⟩
        rintro _ among rfl
        obtain ⟨e, later, same⟩ := List.mem_map.mp among
        exact unseen e later (by rw [same]; exact List.mem_cons_self)
      · intro e among
        rw [split] at among
        rcases List.mem_cons.mp among with rfl | among
        · exact new
        · exact fun old => unseen e among (List.mem_cons_of_mem _ old)

/-! ### Sizes -/

/-- No size is zero, and a frame fits into some message. -/
def Sound (p : SessionConfig) : Prop :=
  (∀ size ∈ p.sizes, 0 < size.2) ∧ p.maxFrameSize ≤ p.maxMessageSize

theorem sound_of_checkSizes {scope : String} (checked : Config.checkSizes scope common = []) :
    Sound common := by
  obtain ⟨zero, exceeds⟩ := List.append_eq_nil_iff.mp checked
  constructor
  · intro size among
    have quiet := List.filterMap_eq_nil_iff.mp zero size among
    exact Nat.pos_of_ne_zero fun is_zero => absurd quiet (by simp [is_zero])
  · refine Nat.le_of_not_lt fun larger => ?_
    rw [if_pos larger] at exceeds
    exact absurd exceeds (by simp)

theorem sound_of_checkMerged {o : Config.Overrides} (sound : Sound common)
    (checked : Config.checkMerged index common o = []) : Sound (common.customized o) := by
  rw [Config.checkMerged] at checked
  by_cases same : common.customized o = common
  · rwa [same]
  · rw [if_neg same] at checked
    exact sound_of_checkSizes checked

theorem mem_checkMapping_of_merged (among : v ∈ Config.checkMerged index common m.overrides) :
    v ∈ Config.checkMappings common seen index [m] := by
  rw [Config.checkMappings]
  split
  · simp [among]
  · simp [among]

theorem sound_of_checkMappings {ms : List MappingConfig} (sound : Sound common)
    (checked : Config.checkMappings common seen index ms = []) :
    ∀ m ∈ ms, Sound (common.customized m.overrides) := by
  induction ms generalizing seen index with
  | nil => exact fun m among => absurd among List.not_mem_nil
  | cons m rest ih =>
      rw [checkMappings_cons] at checked
      obtain ⟨here, later⟩ := List.append_eq_nil_iff.mp checked
      intro m' among
      rcases List.mem_cons.mp among with rfl | among
      · have merged : Config.checkMerged index common m'.overrides = [] := by
          refine List.eq_nil_iff_forall_not_mem.mpr fun v wrong => ?_
          have reported : v ∈ Config.checkMappings common seen index [m'] :=
            mem_checkMapping_of_merged wrong
          rw [here] at reported
          exact absurd reported List.not_mem_nil
        exact sound_of_checkMerged sound merged
      · exact ih later m' among

/-! ### Whole configurations -/

variable {config : ServerConfig}

theorem index?_errors (named : v ∈ config.errors) : v.index? = none
    ∨ v ∈ Config.checkMappings config.websocket [] 0 config.mappings := by
  have address {field value : String} (among : v ∈ Config.checkAddress field value) :
      v.index? = none := by
    rw [Config.checkAddress] at among
    split at among
    · exact absurd among List.not_mem_nil
    · rw [List.mem_singleton.mp among]
      rfl
  rw [ServerConfig.errors] at named
  rcases List.mem_append.mp named with named | mapping
  · left
    rcases List.mem_append.mp named with named | sizes
    · rcases List.mem_append.mp named with named | metrics
      · rcases List.mem_append.mp named with listener | admin
        · exact address listener
        · rw [Config.checkAdmin] at admin
          split at admin
          · rcases List.mem_append.mp admin with bound | key
            · exact address bound
            · split at key
              · rw [List.mem_singleton.mp key]
                rfl
              · exact absurd key List.not_mem_nil
          · exact absurd admin List.not_mem_nil
      · rw [Config.checkMetrics] at metrics
        split at metrics
        · exact address metrics
        · exact absurd metrics List.not_mem_nil
    · exact index?_checkSizes sizes
  · exact .inr mapping

theorem build_eq (h : Hub) (config : ServerConfig) : (build h config).2
    = (addMappings (h.registry.serial + 1) 0 { defaults := config.websocket } config.mappings).2 :=
  by
  rw [build]
  dsimp only [Hub.renewRegistry, Registry.enlist, container]
  generalize addMappings (h.registry.serial + 1) 0 { defaults := config.websocket } config.mappings
    = result
  obtain ⟨added, outcome⟩ := result
  cases outcome with
  | error e => rfl
  | ok c => rfl

theorem build_of_checked (h : Hub)
    (mountable : Mountable (h.registry.serial + 1) config.websocket config.mappings) :
    (build h config).2 = .ok
      { defaults := config.websocket
        negotiators := ({} : Path.Table Negotiator).putAll
          (rows (h.registry.serial + 1) config.websocket config.mappings) } := by
  rw [build_eq]
  exact addMappings_of_rows (c := { defaults := config.websocket }) 0 mountable
    fun e among => rfl

theorem mem_errors_of_checkMappings
    (among : v ∈ Config.checkMappings config.websocket [] 0 config.mappings) :
    v ∈ config.errors := List.mem_append_right _ among

theorem mountable_of_valid (registry : Nat) (valid : config.errors = []) :
    Mountable registry config.websocket config.mappings := by
  obtain ⟨-, checked⟩ := List.append_eq_nil_iff.mp valid
  have quiet : ∀ v ∈ Config.checkMappings config.websocket [] 0 config.mappings,
      v.index? = none := by
    rw [checked]
    exact fun v among => absurd among List.not_mem_nil
  exact (mountable_of_checked registry quiet).1

/-- What a path resolves to in the table of mappings that can all be had. -/
theorem resolve_rows (registry : Nat) (common : SessionConfig) (ms : List MappingConfig)
    (path : List Char) :
    match (({} : Path.Table Negotiator).putAll (rows registry common ms)).resolve path with
    | none => ∀ e ∈ rows registry common ms, e.1.matchPath path = none
    | some (n, matched) => n.spec.matchPath path = some matched
        ∧ (∃ m ∈ ms, row? registry common m = some (n.spec, n))
        ∧ ∀ e ∈ rows registry common ms, (e.1.matchPath path).isSome = true →
          e.1 = n.spec ∨ n.spec.priority e.1 = .lt := by
  have resolved := Path.Table.resolve_of_empty (declared_rows registry common ms) path
  generalize (({} : Path.Table Negotiator).putAll (rows registry common ms)).resolve path
    = result at resolved ⊢
  cases result with
  | none => exact resolved
  | some hit =>
      obtain ⟨n, matched⟩ := hit
      obtain ⟨s, value, matches_, first⟩ := resolved
      obtain ⟨before, after, split, -⟩ := List.lookup_eq_some_iff.mp value
      have among : (s, n) ∈ rows registry common ms := by rw [split]; simp
      obtain ⟨m, configured, row⟩ := List.mem_filterMap.mp among
      obtain ⟨-, rfl, -⟩ := row?_eq_some.mp row
      exact ⟨matches_, ⟨m, configured, row⟩, first⟩

/-- A configuration builds just when the check names no mapping; a start that fails names the
first mapping that the check names. A configuration without errors builds, and every path then
goes to the mapping that wins among those that match, under the common policy with its overrides,
whose sizes are sound. -/
theorem build_agrees_with_check (h : Hub) (config : ServerConfig) :
    ((∃ c, (build h config).2 = .ok c) ↔ ∀ v ∈ config.errors, v.index? = none)
      ∧ (∀ e, (build h config).2 = .error e → (∃ v ∈ config.errors, v.index? = some e.index)
        ∧ ∀ v ∈ config.errors, ∀ i, v.index? = some i → e.index ≤ i)
      ∧ (config.errors = [] → ∃ c, (build h config).2 = .ok c ∧ ∀ path : String,
        match c.resolve path with
        | none => ∀ m ∈ config.mappings, ∀ s, Spec.parse m.pathSpec.toList = .ok s →
            s.matchPath path.toList = none
        | some (n, matched) => n.spec.matchPath path.toList = some matched
            ∧ (∃ m ∈ config.mappings, Spec.parse m.pathSpec.toList = .ok n.spec
              ∧ Creator.named? m.endpoint (h.registry.serial + 1) = some n.creator
              ∧ n.config = config.websocket.customized m.overrides)
            ∧ (∀ m ∈ config.mappings, ∀ s, Spec.parse m.pathSpec.toList = .ok s →
              (s.matchPath path.toList).isSome = true → s = n.spec ∨ n.spec.priority s = .lt)
            ∧ (∀ size ∈ n.config.sizes, 0 < size.2)
            ∧ n.config.maxFrameSize ≤ n.config.maxMessageSize) := by
  have agrees := addMappings_agrees (h.registry.serial + 1) { defaults := config.websocket } [] 0
    config.mappings fun s => ⟨nofun, fun present => absurd rfl present⟩
  rw [← build_eq] at agrees
  have only (v : ValidationError) (among : v ∈ config.errors) (i : Nat)
      (named : v.index? = some i) :
      v ∈ Config.checkMappings config.websocket [] 0 config.mappings := by
    refine (index?_errors among).resolve_left fun silent => ?_
    rw [silent] at named
    exact absurd named (by simp)
  refine ⟨?_, ?_, ?_⟩
  · cases result : (build h config).2 with
    | ok c =>
        rw [result] at agrees
        refine ⟨fun _ v among => ?_, fun _ => ⟨c, rfl⟩⟩
        rcases index?_errors among with silent | mapping
        · exact silent
        · exact agrees v mapping
    | error e =>
        rw [result] at agrees
        obtain ⟨⟨v, among, named⟩, -⟩ := agrees
        refine ⟨fun ⟨c, ok⟩ => absurd ok (by simp), fun silent => ?_⟩
        rw [silent v (mem_errors_of_checkMappings among)] at named
        exact absurd named (by simp)
  · intro e failed
    rw [failed] at agrees
    obtain ⟨⟨v, among, named⟩, least⟩ := agrees
    exact ⟨⟨v, mem_errors_of_checkMappings among, named⟩,
      fun v among i named => least v (only v among i named) i named⟩
  · intro valid
    obtain ⟨others, checked⟩ := List.append_eq_nil_iff.mp valid
    obtain ⟨-, sizes⟩ := List.append_eq_nil_iff.mp others
    have sound := sound_of_checkMappings (sound_of_checkSizes sizes) checked
    have mountable := mountable_of_valid (h.registry.serial + 1) valid
    refine ⟨_, build_of_checked h mountable, ?_⟩
    intro path
    have row (m : MappingConfig) (among : m ∈ config.mappings) (s : Spec)
        (parsed : Spec.parse m.pathSpec.toList = .ok s) :
        ∃ n, (s, n) ∈ rows (h.registry.serial + 1) config.websocket config.mappings := by
      obtain ⟨⟨s', n⟩, row⟩ := mountable.row m among
      obtain ⟨parsed', -⟩ := row?_eq_some.mp row
      obtain rfl := Except.ok.inj (parsed.symm.trans parsed')
      exact ⟨n, List.mem_filterMap.mpr ⟨m, among, row⟩⟩
    have resolved := resolve_rows (h.registry.serial + 1) config.websocket config.mappings
      path.toList
    rw [Container.resolve]
    generalize (({} : Path.Table Negotiator).putAll
      (rows (h.registry.serial + 1) config.websocket config.mappings)).resolve path.toList
      = result at resolved ⊢
    cases result with
    | none =>
        intro m among s parsed
        obtain ⟨n, has⟩ := row m among s parsed
        exact resolved _ has
    | some hit =>
        obtain ⟨n, matched⟩ := hit
        obtain ⟨matches_, ⟨m, among, own⟩, first⟩ := resolved
        obtain ⟨parsed, -, named, policy⟩ := row?_eq_some.mp own
        obtain ⟨positive, fits⟩ := sound m among
        rw [← policy] at positive fits
        refine ⟨matches_, ⟨m, among, parsed, named, policy⟩, ?_, positive, fits⟩
        intro m' among' s parsed' does
        obtain ⟨n', has⟩ := row m' among' s parsed'
        exact first _ has does

/-- Two mappings that build, and two for one spec, of which the check and the start name the
second. -/
theorem build_agrees_with_check_on_two :
    (let echo : MappingConfig := { pathSpec := "/echo", endpoint := "echo" }
      let chat : MappingConfig :=
        { pathSpec := "/chat/*", endpoint := "chat",
          overrides := { maxTextMessageSize := some 512 } }
      (∃ c, (build {} { mappings := [echo, chat] }).2 = .ok c)
        ∧ ∃ e, (build {} { mappings := [echo, { chat with pathSpec := "/echo" }] }).2 = .error e
          ∧ e.index = 1) := by
  intro echo chat
  constructor
  · obtain ⟨-, -, builds⟩ := build_agrees_with_check {} { mappings := [echo, chat] }
    obtain ⟨c, built, -⟩ := builds (by decide +kernel)
    exact ⟨c, built⟩
  · have errors : ({ mappings := [echo, { chat with pathSpec := "/echo" }] } : ServerConfig).errors
        = [.duplicatePathSpec 1 (.exact "/echo".toList)] := by decide +kernel
    obtain ⟨builds, fails, -⟩ :=
      build_agrees_with_check {} { mappings := [echo, { chat with pathSpec := "/echo" }] }
    rw [errors] at builds fails
    cases result : (build {} { mappings := [echo, { chat with pathSpec := "/echo" }] }).2 with
    | ok c =>
        have silent := builds.mp ⟨c, result⟩ _ List.mem_cons_self
        exact absurd silent (by simp [ValidationError.index?])
    | error e =>
        obtain ⟨⟨v, among, named⟩, -⟩ := fails e result
        obtain rfl := List.mem_singleton.mp among
        exact ⟨e, rfl, (Option.some.inj named).symm⟩

end Startup
end Gateway
