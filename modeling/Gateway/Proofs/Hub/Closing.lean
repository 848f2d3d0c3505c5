import Gateway.Proofs.Hub.Hearing
import Gateway.Proofs.Hub.Touch

/-!
Closing a session from several tasks at once. A session leaves the live set once, and of the calls
that close it at most one goes on to announce it: the one that took it out, if no other call has
changed the phase in between.
-/
namespace Gateway

namespace Call

/-- A change of phase in closing a session, with whether its call had found the session live. -/
def swap? (key : SessionKey) : Call → Option Bool
  | .finishClose k removed => if k = key then some removed else none
  | _ => none

end Call

namespace Hub

def swaps (key : SessionKey) (past : List (Hub × Call)) : List Bool :=
  trace (fun _ => Call.swap? key) past

/-- How far the closing of a session is: the one call that can still announce it, the changes of
phase, and what the announcement has read and told. -/
inductive Standing (key : SessionKey) (h : Hub) :
    List Call → List Bool → List (List Session.Listener) → List Session.Listener → Prop
  | live : key ∈ h.registry.live → h.phase key = .opened → Standing key h [] [] [] []
  | removed : key ∉ h.registry.live → h.phase key = .opened →
      Standing key h [.finishClose key true] [] [] []
  | announcing {c : Call} {swaps : List Bool} : key ∉ h.registry.live → h.phase key = .closed →
      swaps.head? = some true → c = .announce key .closed ∨ c = .notify key .closed →
      Standing key h [c] swaps [] []
  | telling {index : Nat} {rest heard listeners : List Session.Listener}
      {faults : List Session.Fault} {swaps : List Bool} : key ∉ h.registry.live →
      h.phase key = .closed → swaps.head? = some true → heard ++ rest = listeners →
      Standing key h [.deliver key .closed index rest faults] swaps [listeners] heard
  | announced {swaps : List Bool} {listeners : List Session.Listener} : key ∉ h.registry.live →
      h.phase key = .closed → swaps.head? = some true →
      Standing key h [] swaps [listeners] listeners
  /-- Another call has changed the phase before the call that took the session out could. -/
  | crossed {calls : List Call} {swaps : List Bool} : key ∉ h.registry.live →
      h.phase key = .closed → swaps.head? = some false →
      calls = [] ∨ calls = [.finishClose key true] → Standing key h calls swaps [] []

variable {key : SessionKey} {h : Hub} {calls : List Call} {changes : List Bool}
  {read : List (List Session.Listener)} {heard : List Session.Listener}

theorem Standing.of_same {k : Hub} (s : Standing key h calls changes read heard)
    (phase : k.phase key = h.phase key) (live : key ∈ k.registry.live ↔ key ∈ h.registry.live) :
    Standing key k calls changes read heard := by
  cases s with
  | live is_live opened => exact .live (live.mpr is_live) (phase.trans opened)
  | removed gone opened => exact .removed (mt live.mp gone) (phase.trans opened)
  | announcing gone closed first call =>
      exact .announcing (mt live.mp gone) (phase.trans closed) first call
  | telling gone closed first split =>
      exact .telling (mt live.mp gone) (phase.trans closed) first split
  | announced gone closed first => exact .announced (mt live.mp gone) (phase.trans closed) first
  | crossed gone closed first call =>
      exact .crossed (mt live.mp gone) (phase.trans closed) first call

theorem Standing.old (s : Standing key h calls changes read heard) : h.phase key ≠ .created := by
  intro created
  cases s <;> simp_all

/-- There is never more than one call that can announce a session closed. -/
theorem Standing.alone {before after : List Call} {c : Call}
    (s : Standing key h (before ++ c :: after) changes read heard) :
    before = [] ∧ after = [] ∧ key ∉ h.registry.live ∧ c ≠ .goLive key := by
  generalize same : before ++ c :: after = calls at s
  cases s with
  | live | announced => exact absurd same (by simp)
  | removed gone | telling gone =>
      obtain ⟨rfl, rfl, rfl⟩ := by simpa [List.append_eq_cons_iff] using same
      exact ⟨rfl, rfl, gone, by simp⟩
  | announcing gone closed first call =>
      obtain ⟨rfl, rfl, rfl⟩ := by simpa [List.append_eq_cons_iff] using same
      refine ⟨rfl, rfl, gone, ?_⟩
      rcases call with rfl | rfl
      · simp
      · simp
  | crossed gone closed first call =>
      rcases call with rfl | rfl
      · exact absurd same (by simp)
      · obtain ⟨rfl, rfl, rfl⟩ := by simpa [List.append_eq_cons_iff] using same
        exact ⟨rfl, rfl, gone, by simp⟩

theorem Standing.swap_false {k : Hub} (s : Standing key h calls changes read heard)
    (gone : key ∉ h.registry.live) (live : k.registry.live = h.registry.live)
    (closed : k.phase key = .closed) : Standing key k calls (changes ++ [false]) read heard := by
  have still (b : Bool) (first : changes.head? = some b) :
      (changes ++ [false]).head? = some b := by
    rw [List.head?_append, first]
    rfl
  rw [← live] at gone
  cases s with
  | live is_live => exact absurd (live ▸ is_live) gone
  | removed => exact .crossed gone closed rfl (.inr rfl)
  | announcing _ _ first call => exact .announcing gone closed (still true first) call
  | telling _ _ first split => exact .telling gone closed (still true first) split
  | announced _ _ first => exact .announced gone closed (still true first)
  | crossed _ _ first call => exact .crossed gone closed (still false first) call

/-- What holds of a session that is being closed, whatever calls are left. -/
structure Closing (key : SessionKey) (h : Hub) (calls : List Call) (past : List (Hub × Call)) :
    Prop where
  standing : Standing key h (calls.filter (Call.critical key)) (swaps key past)
    (readings key .closed past) (told key .closed past)
  fresh : key ∈ h.registry.live → ∀ c ∈ calls, c.concerns key = false
  closing : key ∈ h.registry.live → ∃ c ∈ calls, c.closes key = true

variable {before after : List Call} {c : Call} {past : List (Hub × Call)}

theorem swaps_snoc (key : SessionKey) (past : List (Hub × Call)) (h : Hub) (c : Call) :
    swaps key (past ++ [(h, c)]) = swaps key past ++ (c.swap? key).toList :=
  trace_snoc _ past h c

theorem silent_of_apart (h : Hub) (apart : c.concerns key = false) :
    c.swap? key = none ∧ c.tells? key .closed = none ∧ c.reads? key .closed h = none
      ∧ c.critical key = false := by
  have uncritical : c.critical key = false := by rw [Call.critical, apart, Bool.false_and]
  refine ⟨?_, ?_, ?_, uncritical⟩
  · cases c <;> simp_all [Call.concerns, Call.swap?]
  · refine Option.eq_none_iff_forall_ne_some.mpr fun l tells => ?_
    obtain ⟨index, rest, faults, rfl⟩ := Call.tells?_eq_some.mp tells
    simp [Call.concerns] at apart
  · refine Option.eq_none_iff_forall_ne_some.mpr fun listeners reads => ?_
    obtain ⟨rfl, -⟩ := Call.reads?_eq_some.mp reads
    simp [Call.concerns] at apart

theorem filter_critical_of_apart (key : SessionKey) {calls : List Call}
    (apart : ∀ m ∈ calls, m.concerns key = false) : calls.filter (Call.critical key) = [] := by
  rw [List.filter_eq_nil_iff]
  intro m hm critical
  rw [Call.critical, apart m hm, Bool.false_and] at critical
  exact Bool.false_ne_true critical

theorem Closing.of_gone {k : Hub} {calls : List Call} (gone : key ∉ k.registry.live)
    (standing : Standing key k (calls.filter (Call.critical key)) (swaps key past)
      (readings key .closed past) (told key .closed past)) : Closing key k calls past where
  standing := standing
  fresh live := absurd live gone
  closing live := absurd live gone

theorem Closing.known (inv : Closing key h (before ++ c :: after) past) : c ≠ .goLive key := by
  rintro rfl
  have critical : Call.critical key (.goLive key) = true := by simp [Call.critical, Call.concerns]
  have standing := inv.standing
  rw [List.filter_append, List.filter_cons_of_pos critical] at standing
  exact standing.alone.2.2.2 rfl

theorem Closing.step_elsewhere {k : Hub} {more : List Call}
    (inv : Closing key h (before ++ c :: after) past) (apart : c.concerns key = false)
    (phase : k.phase key = h.phase key) (live : key ∈ k.registry.live ↔ key ∈ h.registry.live)
    (quiet : ∀ m ∈ more, m.concerns key = false)
    (goes_on : c.closes key = true → key ∈ h.registry.live → ∃ m ∈ more, m.closes key = true) :
    Closing key k (before ++ more ++ after) (past ++ [(h, c)]) := by
  obtain ⟨no_swap, no_telling, no_reading, uncritical⟩ := silent_of_apart h apart
  constructor
  · have standing := inv.standing.of_same phase live
    rw [swaps_snoc, told_snoc, readings_snoc, no_swap, no_telling, no_reading]
    rw [List.filter_append, List.filter_cons_of_neg (by rw [uncritical]; exact Bool.false_ne_true)]
      at standing
    rw [List.filter_append, List.filter_append, filter_critical_of_apart key quiet]
    simpa using standing
  · intro is_live m hm
    have fresh := inv.fresh (live.mp is_live)
    rcases List.mem_append.mp hm with front | behind
    · rcases List.mem_append.mp front with earlier | new
      · exact fresh m (List.mem_append_left _ earlier)
      · exact quiet m new
    · exact fresh m (List.mem_append_right _ (List.mem_cons_of_mem c behind))
  · intro is_live
    obtain ⟨m, hm, closes⟩ := inv.closing (live.mp is_live)
    rcases List.mem_append.mp hm with earlier | behind
    · exact ⟨m, List.mem_append_left _ (List.mem_append_left _ earlier), closes⟩
    · rcases List.mem_cons.mp behind with rfl | later
      · obtain ⟨m', among, closes'⟩ := goes_on closes (live.mp is_live)
        exact ⟨m', List.mem_append_left _ (List.mem_append_right _ among), closes'⟩
      · exact ⟨m, List.mem_append_right _ later, closes⟩

theorem Closing.step_remove {k : Hub}
    (inv : Closing key h (before ++ .closeSession key :: after) past)
    (phase : k.phase key = h.phase key) (gone : key ∉ k.registry.live) :
    Closing key k (before ++ [.finishClose key (h.registry.live.contains key)] ++ after)
      (past ++ [(h, .closeSession key)]) := by
  obtain ⟨no_swap, no_telling, no_reading, uncritical⟩ :=
    silent_of_apart h (show Call.concerns key (.closeSession key) = false from rfl)
  have standing := inv.standing
  rw [List.filter_append, List.filter_cons_of_neg (by rw [uncritical]; exact Bool.false_ne_true),
    ← List.filter_append] at standing
  apply Closing.of_gone gone
  rw [swaps_snoc, told_snoc, readings_snoc, no_swap, no_telling, no_reading, Option.toList_none,
    Option.toList_none, Option.toList_none, List.append_nil, List.append_nil, List.append_nil]
  by_cases live : key ∈ h.registry.live
  · have fresh := inv.fresh live
    have none_before := filter_critical_of_apart key fun m hm =>
      fresh m (List.mem_append_left _ hm)
    have none_after := filter_critical_of_apart key fun m hm =>
      fresh m (List.mem_append_right before (List.mem_cons_of_mem _ hm))
    have left : (before ++ [Call.finishClose key (h.registry.live.contains key)] ++ after).filter
        (Call.critical key) = [.finishClose key true] := by
      rw [List.filter_append, List.filter_append, none_before, none_after,
        List.contains_iff_mem.mpr live]
      simp [Call.critical, Call.concerns]
    rw [List.filter_append, none_before, none_after, List.append_nil] at standing
    rw [left]
    generalize swaps key past = changes, readings key .closed past = read,
      told key .closed past = heard at standing ⊢
    cases standing with
    | live _ opened => exact .removed gone (phase.trans opened)
    | announced gone' => exact absurd live gone'
    | crossed gone' => exact absurd live gone'
  · have left : (before ++ [Call.finishClose key (h.registry.live.contains key)] ++ after).filter
        (Call.critical key) = (before ++ after).filter (Call.critical key) := by
      have found : h.registry.live.contains key = false := by simpa using live
      rw [found, List.filter_append, List.filter_append, List.filter_append]
      simp [Call.critical]
    rw [left]
    exact standing.of_same phase
      ⟨fun is_live => absurd is_live gone, fun is_live => absurd is_live live⟩

theorem Closing.step_critical {k : Hub} {more : List Call}
    (inv : Closing key h (before ++ c :: after) past) (critical : c.critical key = true)
    (next : ∀ {changes read heard}, key ∉ h.registry.live → Standing key h [c] changes read heard →
      key ∉ k.registry.live
        ∧ Standing key k (more.filter (Call.critical key)) (changes ++ (c.swap? key).toList)
          (read ++ (c.reads? key .closed h).toList) (heard ++ (c.tells? key .closed).toList)) :
    Closing key k (before ++ more ++ after) (past ++ [(h, c)]) := by
  have standing := inv.standing
  rw [List.filter_append, List.filter_cons_of_pos critical] at standing
  obtain ⟨none_before, none_after, gone, -⟩ := standing.alone
  rw [none_before, none_after, List.nil_append] at standing
  obtain ⟨gone', standing'⟩ := next gone standing
  apply Closing.of_gone gone'
  rw [swaps_snoc, told_snoc, readings_snoc, List.filter_append, List.filter_append, none_before,
    none_after, List.nil_append, List.append_nil]
  exact standing'

/-- The phase changes. What follows is decided by whether the session was found live, and by
whether its phase had changed before. -/
theorem Closing.step_swap {k : Hub} {removed : Bool}
    (inv : Closing key h (before ++ .finishClose key removed :: after) past)
    (closed : k.phase key = .closed) (live : k.registry.live = h.registry.live) :
    Closing key k
      (before ++ (if removed && h.phase key != .closed then [.announce key .closed] else [])
        ++ after) (past ++ [(h, .finishClose key removed)]) := by
  have swap : Call.swap? key (.finishClose key removed) = some removed := if_pos rfl
  cases removed with
  | false =>
      have gone : key ∉ h.registry.live := by
        intro is_live
        have apart := inv.fresh is_live (.finishClose key false) (by simp)
        simp [Call.concerns] at apart
      have standing := inv.standing.swap_false gone live closed
      rw [List.filter_append, List.filter_cons_of_neg (by simp [Call.critical])] at standing
      apply Closing.of_gone (by rwa [live])
      rw [swaps_snoc, told_snoc, readings_snoc, swap]
      simpa [Call.tells?, Call.reads?] using standing
  | true =>
      apply inv.step_critical (by simp [Call.critical, Call.concerns])
      intro changes read heard gone standing
      rw [← live] at gone
      refine ⟨gone, ?_⟩
      have silent : Call.tells? key .closed (.finishClose key true) = none
          ∧ Call.reads? key .closed h (.finishClose key true) = none := ⟨rfl, rfl⟩
      rw [swap, silent.1, silent.2, Option.toList_none, Option.toList_none, List.append_nil,
        List.append_nil]
      cases standing with
      | removed _ opened =>
          rw [opened, if_pos (by decide),
            List.filter_cons_of_pos (by simp [Call.critical, Call.concerns]), List.filter_nil]
          exact .announcing gone closed rfl (.inl rfl)
      | announcing _ _ _ call =>
          rcases call with impossible | impossible
          · exact absurd impossible (by simp)
          · exact absurd impossible (by simp)
      | crossed _ already first =>
          rw [already]
          refine .crossed gone closed ?_ (.inl rfl)
          rw [List.head?_append, first]
          rfl

/-- One step of one call keeps the closing of a session on its way. -/
theorem Closing.step (inv : Closing key h (before ++ c :: after) past) :
    Closing key (c.step h).1 (before ++ (c.step h).2 ++ after) (past ++ [(h, c)]) := by
  have touched := touch c inv.standing.old inv.known
  generalize c.step h = result at touched ⊢
  cases touched with
  | elsewhere apart phase live quiet goes_on =>
      exact inv.step_elsewhere apart phase live quiet goes_on
  | remove phase gone => exact inv.step_remove phase gone
  | swap closed live => exact inv.step_swap closed live
  | announce same =>
      apply inv.step_critical (by simp [Call.critical, Call.concerns])
      intro changes read heard gone standing
      refine ⟨same.gone gone, ?_⟩
      cases standing with
      | announcing _ closed first call =>
          have left : [Call.notify key .closed].filter (Call.critical key)
              = [.notify key .closed] := by simp [Call.critical, Call.concerns]
          have next : Standing key _ [Call.notify key .closed] changes [] [] :=
            .announcing (same.gone gone) ((same.phase key).trans closed) first (.inr rfl)
          rw [left]
          simpa [Call.swap?, Call.tells?, Call.reads?] using next
      | crossed _ _ _ call => exact absurd call (by simp)
  | notify =>
      apply inv.step_critical (by simp [Call.critical, Call.concerns])
      intro changes read heard gone standing
      refine ⟨gone, ?_⟩
      cases standing with
      | announcing _ closed first call =>
          have left : [Call.deliver key .closed 0 h.registry.listeners []].filter
              (Call.critical key) = [.deliver key .closed 0 h.registry.listeners []] := by
            simp [Call.critical, Call.concerns]
          have next : Standing key h [Call.deliver key .closed 0 h.registry.listeners []] changes
              [h.registry.listeners] [] := .telling gone closed first rfl
          rw [left]
          simpa [Call.swap?, Call.tells?, Call.reads?] using next
      | crossed _ _ _ call => exact absurd call (by simp)
  | delivered same =>
      apply inv.step_critical (by simp [Call.critical, Call.concerns])
      intro changes read heard gone standing
      refine ⟨same.gone gone, ?_⟩
      cases standing with
      | announcing _ _ _ call => exact absurd call (by simp)
      | telling _ closed first split =>
          rw [List.append_nil] at split
          subst split
          have next : Standing key _ [] changes [heard] heard :=
            .announced (same.gone gone) ((same.phase key).trans closed) first
          simpa [Call.swap?, Call.tells?, Call.reads?] using next
      | crossed _ _ _ call => exact absurd call (by simp)
  | @deliver k index l rest faults faults' calls same reacts =>
      apply inv.step_critical (by simp [Call.critical, Call.concerns])
      intro changes read heard gone standing
      refine ⟨same.gone gone, ?_⟩
      have quiet : calls.filter (Call.critical key) = [] := filter_critical_of_apart key reacts
      have left : (calls ++ [Call.deliver key .closed (index + 1) rest faults']).filter
          (Call.critical key) = [.deliver key .closed (index + 1) rest faults'] := by
        rw [List.filter_append, quiet]
        simp [Call.critical, Call.concerns]
      cases standing with
      | announcing _ _ _ call => exact absurd call (by simp)
      | @telling _ _ _ listeners _ _ _ closed first split =>
          have next : Standing key k [Call.deliver key .closed (index + 1) rest faults'] changes
              [listeners] (heard ++ [l]) := by
            refine .telling (same.gone gone) ((same.phase key).trans closed) first ?_
            rw [← split, List.append_assoc, List.singleton_append]
          rw [left]
          simpa [Call.swap?, Call.tells?, Call.reads?] using next
      | crossed _ _ _ call => exact absurd call (by simp)

/-- The listeners are those of the beginning, and no announcement has read others. -/
structure SameListeners (key : SessionKey) (listeners : List Session.Listener) (h : Hub)
    (calls : List Call) (past : List (Hub × Call)) : Prop where
  registry : h.registry.listeners = listeners
  waiting : ∀ m ∈ calls, ∀ l ∈ waiting m, l ∈ listeners
  read : ∀ list ∈ readings key .closed past, list = listeners

theorem SameListeners.step {listeners : List Session.Listener}
    (steady : ∀ l ∈ listeners, ∀ kind, (l.reaction kind).steady = true)
    (inv : SameListeners key listeners h (before ++ c :: after) past) :
    SameListeners key listeners (c.step h).1 (before ++ (c.step h).2 ++ after)
      (past ++ [(h, c)]) := by
  obtain ⟨registry, among⟩ := listeners_step c steady inv.registry (inv.waiting c (by simp))
  refine ⟨registry, ?_, ?_⟩
  · intro m hm
    rcases List.mem_append.mp hm with front | behind
    · rcases List.mem_append.mp front with earlier | new
      · exact inv.waiting m (List.mem_append_left _ earlier)
      · exact among m new
    · exact inv.waiting m (List.mem_append_right _ (List.mem_cons_of_mem c behind))
  · intro list hlist
    rw [readings_snoc] at hlist
    rcases List.mem_append.mp hlist with earlier | now
    · exact inv.read list earlier
    · rw [Option.mem_toList] at now
      rw [← (Call.reads?_eq_some.mp now).2, inv.registry]

theorem concerns_of_isEntry (key : SessionKey) (entry : c.isEntry = true) :
    c.concerns key = false ∧ waiting c = [] := by
  cases c <;> simp_all [Call.isEntry, Call.concerns, waiting]

/-- Tasks that close a live session, among them any number of the same session's, in any order of
steps. When all have returned the session is closed and gone, and what the journal has as heard is
what the steps had listeners hear. If the first change of phase was that of the call that took the
session out, one announcement has been made: each registration that it read has heard of the closing
once, in order, and these are all the registrations if no listener registers listeners or takes them
out. Otherwise nobody has heard of the closing. -/
theorem closing_told_once (h : Hub) (tasks : List (List Call)) (schedule : List Nat)
    (key : SessionKey) (live : key ∈ h.registry.live) (opened : h.phase key = .opened)
    (entries : ∀ task ∈ tasks, ∀ c ∈ task, c.isEntry = true)
    (closing : ∃ task ∈ tasks, ∃ c ∈ task, c.closes key = true)
    (returned : ∀ task ∈ (h.interleave tasks schedule).2, task = []) :
    let past := h.history tasks schedule
    (h.interleave tasks schedule).1.phase key = .closed
      ∧ key ∉ (h.interleave tasks schedule).1.registry.live
      ∧ (h.interleave tasks schedule).1.hearings = h.hearings ++ heardIn past
      ∧ ((swaps key past).head? = some true ∧ readings key .closed past = [told key .closed past]
          ∧ ((∀ l ∈ h.registry.listeners, ∀ kind, (l.reaction kind).steady = true) →
            told key .closed past = h.registry.listeners)
        ∨ (swaps key past).head? = some false ∧ readings key .closed past = []
          ∧ told key .closed past = []) := by
  intro past
  have fresh : ∀ c ∈ tasks.flatten, c.concerns key = false ∧ waiting c = [] := by
    intro c hc
    obtain ⟨task, among, within⟩ := List.mem_flatten.mp hc
    exact concerns_of_isEntry key (entries task among c within)
  have done : (h.interleave tasks schedule).2.flatten = [] := List.flatten_eq_nil_iff.mpr returned
  have start : Closing key h tasks.flatten [] := by
    refine ⟨?_, fun _ c hc => (fresh c hc).1, ?_⟩
    · rw [filter_critical_of_apart key fun c hc => (fresh c hc).1]
      exact .live live opened
    · intro _
      obtain ⟨task, among, c, within, closes⟩ := closing
      exact ⟨c, List.mem_flatten.mpr ⟨task, among, within⟩, closes⟩
  have ended := interleave_keeps (fun _ _ _ _ _ => Closing.step) start schedule
  rw [done, List.nil_append] at ended
  have all_told (steady : ∀ l ∈ h.registry.listeners, ∀ kind, (l.reaction kind).steady = true)
      (list : List Session.Listener) (reading : list ∈ readings key .closed past) :
      list = h.registry.listeners := by
    have begun : SameListeners key h.registry.listeners h tasks.flatten [] := by
      refine ⟨rfl, ?_, fun list hlist => absurd hlist List.not_mem_nil⟩
      intro c hc l hl
      rw [(fresh c hc).2] at hl
      exact absurd hl List.not_mem_nil
    have kept := interleave_keeps (fun _ _ _ _ _ => SameListeners.step steady) begun schedule
    rw [List.nil_append] at kept
    exact kept.read list reading
  have journal := hearings_interleave h tasks schedule
  have standing := ended.standing
  rw [List.filter_nil] at standing
  generalize swaps key past = changes, readings key .closed past = read,
    told key .closed past = heard at standing all_told ⊢
  cases standing with
  | live is_live =>
      obtain ⟨c, none_left, -⟩ := ended.closing is_live
      exact absurd none_left List.not_mem_nil
  | announced gone closed first =>
      refine ⟨closed, gone, journal, .inl ⟨first, rfl, ?_⟩⟩
      intro steady
      exact all_told steady heard (List.mem_singleton.mpr rfl)
  | crossed gone closed first => exact ⟨closed, gone, journal, .inr ⟨first, rfl, rfl⟩⟩

def withOneSession (listeners : List Session.Listener) : Hub where
  sessions := [{ id := .made 0, matched := { spec := .default, path := [], covered := [] },
                 config := {}, subprotocol := none, endpoint := .echo, phase := .opened }]
  registry := { live := [0], listeners }

/-- Two calls close the session, and the one that takes it out changes its phase. -/
theorem closing_told_once_by_two :
    told 0 .closed ((withOneSession [.logging]).history [[.closeSession 0], [.closeAll []]]
      [0, 1, 1, 1, 0, 1, 0, 0, 0, 0, 0, 1]) = [.logging] := by
  have ended := closing_told_once (withOneSession [.logging]) [[.closeSession 0], [.closeAll []]]
    [0, 1, 1, 1, 0, 1, 0, 0, 0, 0, 0, 1] 0 (by decide) (by decide) (by decide)
    ⟨_, List.mem_cons_self, _, List.mem_cons_self, by decide⟩ (by decide)
  rcases ended.2.2.2 with ⟨-, -, all_told⟩ | ⟨crossed, -⟩
  · apply all_told
    intro l hl kind
    rw [List.mem_singleton.mp hl]
    cases kind <;> rfl
  · exact absurd crossed (by decide)

/-- Two calls close the session, and the one that does not find it live changes its phase first:
both return, the session is closed and gone, and nobody hears of it. -/
theorem closing_told_to_nobody :
    let h := withOneSession [.logging]
    let tasks : List (List Call) := [[.closeSession 0], [.closeSession 0]]
    let after := h.interleave tasks [0, 1, 1, 0]
    0 ∈ h.registry.live ∧ h.phase 0 = .opened ∧ after.2 = [[], []]
      ∧ 0 ∉ after.1.registry.live ∧ after.1.phase 0 = .closed ∧ after.1.journal = [] := by
  decide

end Hub
end Gateway
