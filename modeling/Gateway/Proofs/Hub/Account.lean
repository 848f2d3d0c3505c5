import Gateway.Proofs.Hub.Comings

/-!
Calls made in the course of other work. What leads from one hub to another is a number of calls,
each run to its end before the next, and new sessions. The live sessions after it are accounted for:
each one that has come or gone did so because the calls or somebody who listens wanted it.
-/
namespace Gateway.Hub

/-- Nothing has happened to the sessions or in the registry, and nobody has heard of anything. -/
structure Undisturbed (h k : Hub) : Prop where
  registry : k.registry = h.registry
  sessions : k.sessions = h.sessions
  cast : k.cast = h.cast
  hearings : k.hearings = h.hearings

variable {h k l : Hub} {key : SessionKey} {c : Call} {called : List Call}
  {past : List (Hub × Call)} {made : List Session} {own : Option SessionKey}

namespace Undisturbed

theorem refl (h : Hub) : h.Undisturbed h := ⟨rfl, rfl, rfl, rfl⟩

theorem trans (first : h.Undisturbed k) (second : k.Undisturbed l) : h.Undisturbed l where
  registry := second.registry.trans first.registry
  sessions := second.sessions.trans first.sessions
  cast := second.cast.trans first.cast
  hearings := second.hearings.trans first.hearings

theorem note (h : Hub) {e : Entry} (silent : e.hearing? = none) : h.Undisturbed (h.note e) :=
  ⟨rfl, rfl, rfl, hearings_note silent⟩

theorem log (h : Hub) (level : Log.Level) (message : String)
    (fields : List (String × Log.Value)) : h.Undisturbed (h.log level message fields) :=
  note h rfl

theorem liveMade (quiet : h.Undisturbed k) (all : h.LiveMade) : k.LiveMade := by
  intro key among
  rw [session?_of_sessions quiet.sessions]
  rw [quiet.registry] at among
  exact all key among

end Undisturbed

/-- Calls called, sessions made and steps past, from one hub to another. Nothing else happens that
the registry or whoever listens to it could notice. -/
inductive Leads (h : Hub) : List Call → List Session → List (Hub × Call) → Hub → Prop
  | start : Leads h [] [] [] h
  | quiet {called : List Call} {made : List Session} {past : List (Hub × Call)} {k l : Hub} :
      Leads h called made past k → k.Undisturbed l → Leads h called made past l
  | makes {called : List Call} {made : List Session} {past : List (Hub × Call)} {k : Hub}
      (matched : Path.Match) (config : Config.SessionConfig) (subprotocol : Option String)
      (endpoint : Session.Endpoint) : Leads h called made past k →
      Leads h called (made ++ [{ id := .made k.nextKey, matched, config, subprotocol, endpoint }])
        past (k.create matched config subprotocol endpoint).1
  | call {called : List Call} {made : List Session} {past : List (Hub × Call)} {k : Hub}
      {c : Call} :
      Leads h called made past k → c.isEntry = true →
      Leads h (called ++ [c]) made (past ++ k.steps [c]) (k.run [c])

namespace Leads

theorem live (leads : h.Leads called made past k) :
    k.registry.live = liveAfter h.registry.live past := by
  induction leads with
  | start => rfl
  | quiet _ quiet ih => rw [quiet.registry, ih]
  | makes _ _ _ _ _ ih => exact ih
  | call _ _ ih => rw [live_run, ih, liveAfter_append]

theorem heard (leads : h.Leads called made past k) :
    k.hearings = h.hearings ++ heardIn past := by
  induction leads with
  | start => exact (List.append_nil _).symm
  | quiet _ quiet ih => rw [quiet.hearings, ih]
  | makes _ _ _ _ _ ih => exact ih
  | call _ _ ih => rw [hearings_run, ih, heardIn_append, List.append_assoc]

theorem founded (leads : h.Leads called made past k) :
    ∀ step ∈ past, Founded called past step.2 := by
  induction leads with
  | start => exact List.forall_mem_nil _
  | quiet _ _ ih | makes _ _ _ _ _ ih => exact ih
  | @call called made past k c _ entry ih =>
      refine List.forall_mem_append.mpr ⟨fun step among => (ih step among).append _ _, ?_⟩
      refine founded_steps (List.forall_mem_singleton.mpr ?_)
      exact Wanted.founded (.inl (List.mem_append_right called (List.mem_singleton.mpr rfl))) entry

theorem audience {P : Session.Listener → Prop} {serial : Nat} (leads : h.Leads called made past k)
    (audience : Audience P serial h) :
    Audience P serial k ∧ ∀ x ∈ heardIn past, P x.listener := by
  induction leads with
  | start => exact ⟨audience, List.forall_mem_nil _⟩
  | quiet _ quiet ih =>
      refine ⟨ih.1.of_eq ?_ ?_ quiet.cast, ih.2⟩
      · rw [quiet.registry]
      · rw [quiet.registry]
  | makes _ _ _ _ _ ih => exact ⟨ih.1.of_eq rfl rfl rfl, ih.2⟩
  | @call called made past k c _ entry ih =>
      have waits : ∀ m ∈ [c], ∀ l ∈ waiting m, P l := by
        refine List.forall_mem_singleton.mpr ?_
        cases c with
        | openSession | closeSession | report | closeAll => exact List.forall_mem_nil _
        | _ => exact absurd entry Bool.false_ne_true
      obtain ⟨later, heard⟩ := ih.1.run waits
      rw [heardIn_append]
      exact ⟨later, List.forall_mem_append.mpr ⟨ih.2, heard⟩⟩

theorem asMade (leads : h.Leads called made past k) :
    k.sessions.map Session.asMade = h.sessions.map Session.asMade ++ made := by
  induction leads with
  | start => exact (List.append_nil _).symm
  | quiet _ quiet ih => rw [quiet.sessions, ih]
  | makes _ _ _ _ _ ih =>
      rw [create, List.map_append, ih, List.append_assoc]
      rfl
  | @call called made past k c _ _ ih =>
      rw [← ih]
      refine List.ext_getElem? fun key => ?_
      rw [List.getElem?_map, List.getElem?_map]
      exact asMade_run k [c] key

theorem old (leads : h.Leads called [] past k) (old : h.phase key ≠ .created) :
    k.phase key ≠ .created ∧ key ∉ comings past := by
  generalize none_made : ([] : List Session) = made at leads
  induction leads with
  | start => exact ⟨old, List.not_mem_nil⟩
  | quiet _ quiet ih =>
      obtain ⟨still, apart⟩ := ih none_made
      exact ⟨by rwa [phase_of_sessions quiet.sessions], apart⟩
  | makes => simp at none_made
  | @call called made past k c _ entry ih =>
      obtain ⟨still, apart⟩ := ih none_made
      have other : .goLive key ∉ [c] := by
        rw [List.mem_singleton]
        rintro rfl
        exact absurd entry Bool.false_ne_true
      refine ⟨((later_run k [c]).phase key).old still, ?_⟩
      rw [comings_append]
      exact List.not_mem_append apart (comings_of_old still other)

theorem liveMade (leads : h.Leads called made past k) (all : h.LiveMade) : k.LiveMade := by
  induction leads with
  | start => exact all
  | quiet _ quiet ih => exact quiet.liveMade ih
  | makes _ _ _ _ _ ih =>
      intro key among
      rw [session?_create]
      split
      · exact Option.some_ne_none _
      · exact ih key among
  | call _ entry ih =>
      refine liveMade_run ih fun key among => ?_
      obtain rfl := List.mem_singleton.mp among
      exact absurd entry Bool.false_ne_true

theorem undisturbed (leads : h.Leads [] [] past k) : h.Undisturbed k := by
  generalize none_called : ([] : List Call) = called at leads
  generalize none_made : ([] : List Session) = made at leads
  induction leads with
  | start => exact .refl h
  | quiet _ quiet ih => exact (ih none_called none_made).trans quiet
  | makes => simp at none_made
  | call => simp at none_called

end Leads

/-- The live sessions accounted for, where some calls were called and perhaps a session of its own
was opened. -/
structure Accounted (h : Hub) (called : List Call) (own : Option SessionKey)
    (past : List (Hub × Call)) (k : Hub) : Prop where
  live : k.registry.live = liveAfter h.registry.live past
  heard : k.hearings = h.hearings ++ heardIn past
  hearers : ∀ x ∈ heardIn past, x.listener ∈ h.registry.listeners ++ h.cast
  once : ∀ key, own = some key → (comings past).count key = 1
  came : ∀ key ∈ comings past, own = some key ∨ Wanted called past (.openSession key)
  went : ∀ step ∈ past, ∀ key, step.2 = .closeSession key → WantedOut called past key
  asMade : ∀ key, own ≠ some key →
    (k.session? key).map Session.asMade = (h.session? key).map Session.asMade
  quiet : called = [] → own = none → h.Undisturbed k
  liveMade : h.LiveMade → k.LiveMade

theorem Leads.hearers (leads : h.Leads called made past k) :
    ∀ x ∈ heardIn past, x.listener ∈ h.registry.listeners ++ h.cast :=
  (leads.audience {
    serial := rfl
    listeners := fun _ among => List.mem_append_left _ among
    cast := fun _ among => List.mem_append_right _ among }).2

theorem Leads.accounted (leads : h.Leads called [] past k) : h.Accounted called none past k where
  live := leads.live
  heard := leads.heard
  hearers := leads.hearers
  once _ own := absurd own (by simp)
  came key among := by
    obtain ⟨step, past, comes⟩ := mem_comings.mp among
    have founded := leads.founded step past
    rw [comes] at founded
    exact .inr founded
  went step among key goes := by
    have founded := leads.founded step among
    rwa [goes] at founded
  asMade key _ := by
    have kept := leads.asMade
    rw [List.append_nil] at kept
    rw [session?, session?, ← List.getElem?_map, ← List.getElem?_map, kept]
  quiet none_called _ := by
    subst none_called
    exact leads.undisturbed
  liveMade := leads.liveMade

/-! ### A session of its own -/

theorem count_comings_of_new (new : k.phase key = .created) :
    (comings (k.steps [.openSession key])).count key = 1 := by
  have opens : (Call.openSession key).step k
      = (k.modify key fun s => s.markOpen.1, [.goLive key]) := by
    rw [Call.step, new]
  have opened : (k.modify key fun s => s.markOpen.1).phase key ≠ .created := by
    rw [phase_markOpen k new, if_pos rfl]
    exact Session.Phase.noConfusion
  generalize (k.modify key fun s => s.markOpen.1) = l at opens opened
  have later := ((later_step l (.goLive key)).phase key).old opened
  have rest : key ∉ comings (((Call.goLive key).step l).1.steps [.announce key .opened]) :=
    comings_of_old later (by simp)
  rw [steps_cons, opens, List.append_nil, steps_cons, comings_cons, comings_cons]
  rw [List.count_append, List.count_append]
  have none_later : (comings (((Call.goLive key).step l).1.steps
      (((Call.goLive key).step l).2 ++ []))).count key = 0 := List.count_eq_zero.mpr rest
  rw [none_later]
  simp [Call.comes?]

theorem Wanted.besides (wanted : Wanted (called ++ [.openSession key]) past c)
    (other : c ≠ .openSession key) : Wanted called past c := by
  rcases wanted with among | heard
  · refine .inl ((List.mem_append.mp among).resolve_right ?_)
    rwa [List.mem_singleton]
  · exact .inr heard

/-- What leads to a session of its own that is opened at once. -/
theorem Leads.opens (leads : h.Leads called [] past k) (matched : Path.Match)
    (config : Config.SessionConfig) (subprotocol : Option String) (endpoint : Session.Endpoint)
    (same : (k.create matched config subprotocol endpoint).1.Undisturbed l) :
    let steps := past ++ l.steps [.openSession h.nextKey]
    k.nextKey = h.nextKey
      ∧ h.Leads (called ++ [.openSession h.nextKey])
        [{ id := .made h.nextKey, matched, config, subprotocol, endpoint }] steps
        (l.run [.openSession h.nextKey])
      ∧ h.Accounted called (some h.nextKey) steps (l.run [.openSession h.nextKey]) := by
  intro steps
  have next : k.nextKey = h.nextKey := by
    have lengths := congrArg List.length leads.asMade
    rwa [List.append_nil, List.length_map, List.length_map] at lengths
  have whole := ((leads.makes matched config subprotocol endpoint).quiet same).call
    (c := .openSession h.nextKey) rfl
  rw [next, List.nil_append] at whole
  refine ⟨next, whole, ?_⟩
  have created : l.phase h.nextKey = .created := by
    rw [phase_of_sessions same.sessions, phase, session?_create, if_pos next.symm]
    rfl
  have unmade : h.phase h.nextKey ≠ .created := by
    rw [phase, session?_nextKey]
    exact Session.Phase.noConfusion
  refine ⟨whole.live, whole.heard, whole.hearers, ?_, ?_, ?_, ?_,
    fun _ none_own => absurd none_own (Option.some_ne_none _), whole.liveMade⟩
  · rintro key ⟨⟩
    rw [comings_append, List.count_append, count_comings_of_new created,
      List.count_eq_zero.mpr (leads.old unmade).2]
  · intro key among
    obtain ⟨step, past, comes⟩ := mem_comings.mp among
    have founded := whole.founded step past
    rw [comes] at founded
    by_cases new : h.nextKey = key
    · exact .inl (congrArg some new)
    · exact .inr (Wanted.besides founded fun same => new (Call.openSession.inj same).symm)
  · intro step among key goes
    have founded := whole.founded step among
    rw [goes] at founded
    rcases founded with one | ⟨first, all⟩
    · exact .inl (one.besides fun same => Call.noConfusion same)
    · exact .inr ⟨first, all.besides fun same => Call.noConfusion same⟩
  · intro key other
    rw [session?, session?, ← List.getElem?_map, whole.asMade, List.getElem?_append,
      ← List.getElem?_map]
    split
    · rfl
    · rename_i beyond
      have past_new : h.nextKey < key := by
        rw [List.length_map, Nat.not_lt] at beyond
        exact Nat.lt_of_le_of_ne beyond fun same => other (congrArg some same)
      rw [List.getElem?_eq_none, List.getElem?_eq_none (Nat.le_of_not_lt beyond)]
      rw [List.length_map]
      exact Nat.sub_pos_of_lt past_new

/-- Where the only listener closes each session as it opens, a new one does not stay. -/
theorem live_of_turned_away {closer : Session.Listener} (new : h.phase key = .created)
    (others : ∀ other, key ≠ other → h.phase other ≠ .created)
    (alone : h.registry.listeners = [closer]) (turns : closer.opened = .closeSession none)
    (none_live : h.registry.live = []) : (h.run [.openSession key]).registry.live = [] := by
  have turned {k : Hub} (old : ∀ other, k.phase other ≠ .created) (live : k.registry.live = [key]) :
      (k.run [.deliver key .opened 0 [closer] []]).registry.live = [] := by
    have called : (closer.reaction Session.Event.opened.kind).calls key = [.closeSession key] := by
      rw [show closer.reaction Session.Event.opened.kind = closer.opened from rfl, turns]
      rfl
    rw [run_cons, Call.step]
    dsimp only
    rw [called, List.append_nil, List.singleton_append, run_cons]
    generalize told : (k.tell closer key .opened 0).1 = l
    obtain ⟨⟨phases, same⟩, -⟩ := tell_frame k closer key .opened 0
    rw [told] at phases same
    have emptied : ((Call.closeSession key).step l).1.registry.live = [] := by
      rw [live_step_eq, same, live]
      simp [Call.moves]
    rw [live_run, emptied]
    refine List.eq_nil_iff_forall_not_mem.mpr fun other among => ?_
    have aged : ((Call.closeSession key).step l).1.phase other ≠ .created := by
      refine ((later_step l (.closeSession key)).phase other).old ?_
      rw [phases]
      exact old other
    rcases mem_of_mem_liveAfter among with before | comes
    · exact List.not_mem_nil before
    · exact comings_of_old aged (by simp [Call.step]) comes
  have opens : (Call.openSession key).step h
      = (h.modify key fun s => s.markOpen.1, [.goLive key]) := by
    rw [Call.step, new]
  let l : Hub := h.modify key fun s => s.markOpen.1
  let m : Hub := ((Call.goLive key).step l).1
  let k : Hub := ((Call.announce key .opened).step m).1
  have ran : h.run [.openSession key] = k.run [.deliver key .opened 0 [closer] []] := by
    rw [run_cons, opens, ← alone]
    change l.run [.goLive key] = _
    rw [run_cons]
    change m.run [.announce key .opened] = _
    rw [run_cons]
    change k.run [.notify key .opened] = _
    rw [run_cons]
    rfl
  rw [ran]
  refine turned (fun other => ?_) ?_
  · change l.phase other ≠ .created
    rw [phase_markOpen h new]
    split
    · exact Session.Phase.noConfusion
    · rename_i apart
      exact others other (Ne.symm apart)
  · change h.registry.live ++ [key] = [key]
    rw [none_live, List.nil_append]

/-! ### What follows -/

namespace Accounted

theorem later (accounted : h.Accounted called own past k) (quiet : k.Undisturbed l) :
    h.Accounted called own past l where
  live := by rw [quiet.registry, accounted.live]
  heard := by rw [quiet.hearings, accounted.heard]
  hearers := accounted.hearers
  once := accounted.once
  came := accounted.came
  went := accounted.went
  asMade key other := by rw [session?_of_sessions quiet.sessions, accounted.asMade key other]
  quiet none_called none_own := (accounted.quiet none_called none_own).trans quiet
  liveMade all := quiet.liveMade (accounted.liveMade all)

/-- Nobody has anything to do with a session that nobody wants to be opened or closed. -/
theorem mem_live_iff (accounted : h.Accounted called own past k)
    (unopened : ¬ Wanted called past (.openSession key)) (unclosed : ¬ WantedOut called past key) :
    key ∈ k.registry.live ↔ key ∈ h.registry.live ∨ own = some key := by
  have comes : key ∈ comings past ↔ own = some key := by
    constructor
    · intro among
      exact (accounted.came key among).resolve_right unopened
    · intro same
      exact List.count_pos_iff.mp (by rw [accounted.once key same]; exact Nat.one_pos)
  have stays : ∀ step ∈ past, step.2 ≠ .closeSession key :=
    fun step among goes => unclosed (accounted.went step among key goes)
  rw [accounted.live, mem_liveAfter stays, comes]

/-- Where nothing is called, the session of its own is all that comes, and nothing goes. -/
theorem live_of_silent (accounted : h.Accounted [] own past k)
    (silent : ∀ l ∈ h.registry.listeners ++ h.cast, ∀ kind key, (l.reaction kind).calls key = []) :
    k.registry.live = h.registry.live ++ own.toList := by
  have unwanted (c : Call) : ¬ Wanted [] past c := by
    rintro (among | ⟨x, heard, called⟩)
    · exact List.not_mem_nil among
    · rw [silent x.listener (accounted.hearers x heard)] at called
      exact List.not_mem_nil called
  have none_goes : ∀ step ∈ past, ∀ key, step.2 ≠ .closeSession key := by
    intro step among key goes
    rcases accounted.went step among key goes with one | ⟨first, all⟩
    · exact unwanted _ one
    · exact unwanted _ all
  have comes : ∀ key ∈ comings past, own = some key :=
    fun key among => (accounted.came key among).resolve_right (unwanted _)
  rw [accounted.live, liveAfter_of_comings none_goes]
  congr 1
  cases own with
  | none => exact List.eq_nil_iff_forall_not_mem.mpr fun key among => absurd (comes key among) nofun
  | some key =>
      have all : ∀ other ∈ comings past, other = key :=
        fun other among => (Option.some.inj (comes other among)).symm
      have one := accounted.once key rfl
      rw [List.eq_replicate_of_mem all, List.count_replicate_self] at one
      rw [List.eq_replicate_of_mem all, one]
      rfl

end Accounted
end Gateway.Hub
