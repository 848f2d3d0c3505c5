import Gateway.Proofs.Startup.Mounting

/-!
What the order of registrations decides: nothing but which value a spec gets that is registered
more than once. In a configuration without errors no spec is, so its mappings may stand in any
order.
-/
namespace Gateway.Startup

open Config (MappingConfig ServerConfig)
open Gateway.Path (Spec Table)

variable {α : Type}

/-- A configuration without errors builds the same container from its mappings in every order. -/
theorem build_of_perm (h : Hub) {config : ServerConfig} {mappings : List MappingConfig}
    (valid : config.errors = []) (perm : mappings.Perm config.mappings) :
    ∃ c, (build h config).2 = .ok c ∧ (build h { config with mappings }).2 = .ok c := by
  have mountable := mountable_of_valid (h.registry.serial + 1) valid
  have mountable' : Mountable (h.registry.serial + 1) config.websocket mappings :=
    mountable.perm perm
  refine ⟨_, build_of_checked h mountable, ?_⟩
  have built : (build h { config with mappings }).2 = .ok
      { defaults := config.websocket
        negotiators := ({} : Table Upgrade.Negotiator).putAll
          (rows (h.registry.serial + 1) config.websocket mappings) } :=
    build_of_checked h mountable'
  have same : ({} : Table Upgrade.Negotiator).putAll
      (rows (h.registry.serial + 1) config.websocket mappings)
        = ({} : Table Upgrade.Negotiator).putAll
          (rows (h.registry.serial + 1) config.websocket config.mappings) := by
    refine Table.putAll_of_same_pairs (declared_rows _ _ _)
      (Table.oneValue_of_nodup mountable.distinct) ?_
    intro e
    exact (perm.filterMap (row? (h.registry.serial + 1) config.websocket)).mem_iff
  rw [built, same]

/-- Registrations of declared specs, one after the other: the table is in strict order of
precedence and has for each spec the value it got first; a spec that has a value is refused and
nothing changes; a path goes to the winner among all specs that match it; the same pairs in another
order give the same table. So the mappings of a configuration without errors build the same
container in every order. -/
theorem registered_by_precedence {inserts : List (Spec × α)}
    (declared : ∀ e ∈ inserts, e.1.Declared) :
    let t := ({} : Table α).putAll inserts
    t.entries.Pairwise (fun a b => a.1.priority b.1 = .lt) ∧ (t.entries.map Prod.fst).Nodup
      ∧ (∀ s v, (s, v) ∈ t.entries ↔ inserts.lookup s = some v)
      ∧ (∀ s v, s.Declared → match t.insert? s v with
        | none => s ∈ inserts.map Prod.fst ∧ t.put s v = t
        | some t' => s ∉ inserts.map Prod.fst ∧ t.put s v = t'
            ∧ ∃ before after, t.entries = before ++ after
              ∧ t'.entries = before ++ (s, v) :: after
              ∧ (∀ e ∈ before, e.1.priority s = .lt) ∧ ∀ e ∈ after, s.priority e.1 = .lt)
      ∧ (∀ path, match t.resolve path with
        | none => ∀ e ∈ inserts, e.1.matchPath path = none
        | some (v, m) => ∃ s, inserts.lookup s = some v ∧ s.matchPath path = some m
            ∧ ∀ e ∈ inserts, (e.1.matchPath path).isSome = true →
              e.1 = s ∨ s.priority e.1 = .lt)
      ∧ (∀ inserts', Table.OneValue inserts → (∀ e, e ∈ inserts' ↔ e ∈ inserts) →
        ({} : Table α).putAll inserts' = t)
      ∧ ∀ h config mappings, ServerConfig.errors config = [] → mappings.Perm config.mappings →
        ∃ c, (build h config).2 = .ok c ∧ (build h { config with mappings }).2 = .ok c := by
  intro t
  have ordered : t.Ordered := Table.ordered_empty.putAll declared
  have has (s : Spec) : t.get? s ≠ none ↔ s ∈ inserts.map Prod.fst := by
    rw [Table.get?_of_empty, ← Option.isSome_iff_ne_none, List.lookup_isSome_iff, List.mem_map]
    simp only [beq_iff_eq]
    exact exists_congr fun e => and_congr_right fun _ => eq_comm
  refine ⟨ordered.sorted, ordered.nodup_keys, ?_, ?_, Table.resolve_of_empty declared, ?_, ?_⟩
  · intro s v
    rw [ordered.mem_iff, Table.get?_of_empty]
  · intro s v declared
    have verdict := ordered.insert?_cases declared v
    cases outcome : t.insert? s v with
    | none =>
        rw [outcome] at verdict
        exact ⟨(has s).mp verdict.1, verdict.2⟩
    | some t' =>
        rw [outcome] at verdict
        refine ⟨?_, verdict.2⟩
        intro among
        exact (has s).mpr among verdict.1
  · intro inserts' single same
    exact Table.putAll_of_same_pairs declared single same
  · intro h config mappings valid perm
    exact build_of_perm h valid perm

/-- The second registration of the exact spec is refused, and the path goes to the first. -/
theorem registered_by_precedence_refusing :
    let inserts := [(Spec.below ['/', 'a'], 1), (.exact ['/', 'a'], 2), (.exact ['/', 'a'], 3)];
    let t := ({} : Table Nat).putAll inserts;
    (∀ e ∈ inserts, e.1.Declared)
      ∧ t.entries = [(.exact ['/', 'a'], 2), (.below ['/', 'a'], 1)]
      ∧ (Spec.exact ['/', 'a'], 2) ∈ t.entries := by
  intro inserts t
  have declared : ∀ e ∈ inserts, e.1.Declared := by
    intro e among
    have either : e.1 = .below ['/', 'a'] ∨ e.1 = .exact ['/', 'a'] := by
      simp only [inserts, List.mem_cons, List.not_mem_nil, or_false] at among
      rcases among with rfl | rfl | rfl
      · exact .inl rfl
      · exact .inr rfl
      · exact .inr rfl
    rcases either with own | own
    · exact ⟨['/', 'a', '/', '*'], by rw [own]; rfl⟩
    · exact ⟨['/', 'a'], by rw [own]; rfl⟩
  obtain ⟨-, -, kept, -⟩ := registered_by_precedence declared
  exact ⟨declared, by decide, (kept _ 2).mpr rfl⟩

end Gateway.Startup
