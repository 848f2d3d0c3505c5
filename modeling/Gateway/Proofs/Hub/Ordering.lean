import Gateway.Proofs.Hub.Closing
import Gateway.Proofs.Hub.Live
import Gateway.Proofs.Hub.Operations

/-!
The order in which listeners hear of the opening and the closing of one session, when it is closed
as soon as it can be found. The opening is announced once and the closing at most once, whatever
tasks come between; whoever has been told of the opening when the closing is announced hears of the
two in that order. Main statement: `opened_heard_first`.
-/
namespace Gateway

namespace Call

def heralds (key : SessionKey) : Call → Bool
  | .announce k .opened | .notify k .opened | .deliver k .opened _ _ _ => k == key
  | _ => false

/-- A call that is on its way in opening a session, or in closing it. -/
def about (key : SessionKey) (c : Call) : Bool := c.concerns key || c.heralds key

end Call

namespace Hub

/-- Whoever has begun to close the session found it live. -/
def ClosedOnceLive (key : SessionKey) (past : List (Hub × Call)) : Prop :=
  ∀ n < past.length, (past.map Prod.snd)[n]? = some (.closeSession key) →
    .goLive key ∈ (past.map Prod.snd).take n

instance (key : SessionKey) (past : List (Hub × Call)) : Decidable (ClosedOnceLive key past) :=
  inferInstanceAs (Decidable (∀ n < past.length, _ → _))

/-- A listener hears that the session is open before it hears that it is closed, if it does. -/
def OpenedFirst (key : SessionKey) (l : Session.Listener) (past : List (Hub × Call)) : Prop :=
  ∀ earlier, earlier <+: past → l ∈ told key .closed earlier → l ∈ told key .opened earlier

variable {key : SessionKey} {h : Hub} {before after calls : List Call} {c : Call}
  {past : List (Hub × Call)} {read : List (List Session.Listener)} {heard : List Session.Listener}

theorem ClosedOnceLive.of_append {later : List (Hub × Call)}
    (found : ClosedOnceLive key (past ++ later)) : ClosedOnceLive key past := by
  intro n within closes
  have within' : n < (past.map Prod.snd).length := by rwa [List.length_map]
  have live := found n (by rw [List.length_append]; omega)
  rw [List.map_append, List.getElem?_append_left within',
    List.take_append_of_le_length (Nat.le_of_lt within')] at live
  exact live closes

theorem ClosedOnceLive.last (found : ClosedOnceLive key (past ++ [(h, .closeSession key)])) :
    ∃ step ∈ past, step.2 = .goLive key := by
  have live := found past.length (by simp) (by simp)
  rw [List.map_append, List.take_left' (List.length_map _)] at live
  exact List.mem_map.mp live

/-! ### The opening -/

/-- How far the announcement of an opening is: its one call, what it has read and whom it has
told. -/
inductive Heralded (key : SessionKey) :
    List Call → List (List Session.Listener) → List Session.Listener → Prop
  | coming {c : Call} : c = .announce key .opened ∨ c = .notify key .opened →
      Heralded key [c] [] []
  | telling {index : Nat} {rest heard listeners : List Session.Listener}
      {faults : List Session.Fault} : heard ++ rest = listeners →
      Heralded key [.deliver key .opened index rest faults] [listeners] heard
  | told {listeners : List Session.Listener} : Heralded key [] [listeners] listeners

theorem Heralded.alone (heralded : Heralded key (before ++ c :: after) read heard) :
    before = [] ∧ after = [] := by
  generalize same : before ++ c :: after = calls at heralded
  cases heralded with
  | coming | telling =>
      obtain ⟨rfl, -, rfl⟩ := by simpa [List.append_eq_cons_iff] using same
      exact ⟨rfl, rfl⟩
  | told => exact absurd same (by simp)

theorem silent_of_not_heralds (h : Hub) (other : c.heralds key = false) :
    c.tells? key .opened = none ∧ c.reads? key .opened h = none := by
  constructor
  · refine Option.eq_none_iff_forall_ne_some.mpr fun l tells => ?_
    obtain ⟨index, rest, faults, rfl⟩ := Call.tells?_eq_some.mp tells
    simp [Call.heralds] at other
  · refine Option.eq_none_iff_forall_ne_some.mpr fun listeners reads => ?_
    obtain ⟨rfl, -⟩ := Call.reads?_eq_some.mp reads
    simp [Call.heralds] at other

theorem heralds_of_left {m : Call} (left : Left h c m) (known : c ≠ .goLive key)
    (other : c.heralds key = false) : m.heralds key = false := by
  cases left with
  | opened => simpa [Call.heralds] using known
  | @announced _ event | @read _ event | @told _ event =>
      cases event with
      | opened => exact other
      | closed | failed => rfl
  | opening | closing | closed | reported | reopens | recloses | resweeps | all | one | others =>
      rfl

theorem Heralded.step (known : c ≠ .goLive key)
    (heralded : Heralded key ((before ++ c :: after).filter (Call.heralds key)) read heard) :
    Heralded key ((before ++ (c.step h).2 ++ after).filter (Call.heralds key))
      (read ++ (c.reads? key .opened h).toList) (heard ++ (c.tells? key .opened).toList) := by
  rw [List.filter_append] at heralded
  rw [List.filter_append, List.filter_append]
  cases own : c.heralds key with
  | false =>
      have quiet : (c.step h).2.filter (Call.heralds key) = [] :=
        List.filter_eq_nil_iff.mpr fun m among =>
          ne_true_of_eq_false (heralds_of_left (left_of_step h c m among) known own)
      obtain ⟨tells, reads⟩ := silent_of_not_heralds h own
      rw [List.filter_cons_of_neg (ne_true_of_eq_false own)] at heralded
      rw [quiet, tells, reads]
      simpa using heralded
  | true =>
      rw [List.filter_cons_of_pos own] at heralded
      obtain ⟨none_before, none_after⟩ := heralded.alone
      rw [none_before, none_after, List.nil_append] at heralded
      rw [none_before, none_after, List.nil_append, List.append_nil]
      cases heralded with
      | coming call =>
          rcases call with rfl | rfl
          · have left : (Call.step h (.announce key .opened)).2.filter (Call.heralds key)
                = [.notify key .opened] := by simp [Call.step, Call.heralds]
            rw [left]
            exact .coming (.inr rfl)
          · have left : (Call.step h (.notify key .opened)).2.filter (Call.heralds key)
                = [.deliver key .opened 0 h.registry.listeners []] := by
              simp [Call.step, Call.heralds]
            have reads : Call.reads? key .opened h (.notify key .opened)
                = some h.registry.listeners := if_pos ⟨rfl, rfl⟩
            rw [left, reads]
            exact .telling rfl
      | @telling index rest heard listeners faults split =>
          cases rest with
          | nil =>
              rw [List.append_nil] at split
              subst split
              have all_told : Heralded key [] [heard] heard := .told
              simpa [Call.step, Call.reads?, Call.tells?] using all_told
          | cons l rest =>
              have tells : Call.tells? key .opened (.deliver key .opened index (l :: rest) faults)
                  = some l := if_pos ⟨rfl, rfl⟩
              rw [Call.step, tells]
              generalize h.tell l key .opened index = result
              obtain ⟨k, fault⟩ := result
              have quiet : ((l.reaction .opened).calls key).filter (Call.heralds key) = [] := by
                refine List.filter_eq_nil_iff.mpr fun m called => ne_true_of_eq_false ?_
                rcases Session.Reaction.mem_calls called with ⟨_, rfl⟩ | ⟨_, rfl⟩ | ⟨_, rfl⟩
                · rfl
                · rfl
                · rfl
              have left : ((l.reaction .opened).calls key
                  ++ [Call.deliver key .opened (index + 1) rest
                    (faults ++ fault.toList)]).filter (Call.heralds key)
                  = [.deliver key .opened (index + 1) rest (faults ++ fault.toList)] := by
                rw [List.filter_append, quiet]
                simp [Call.heralds]
              refine left ▸ .telling ?_
              rw [← split, Option.toList_some, List.append_assoc, List.singleton_append]

/-! ### Before a session is live -/

theorem not_about_of_left {m : Call} (left : Left h c m) (other : c.about key = false)
    (idle : h.phase key = .created → c ≠ .openSession key) (apart : c ≠ .closeSession key) :
    m.about key = false := by
  have elsewhere {k : SessionKey} (ne : k ≠ key) : (k == key) = false := by simpa using ne
  rw [Call.about, Bool.or_eq_false_iff] at other ⊢
  have known : c ≠ .goLive key := by
    rintro rfl
    exact absurd other.1 (by simp [Call.concerns])
  refine ⟨?_, heralds_of_left left known other.2⟩
  cases left with
  | @opening k now =>
      have ne : k ≠ key := by
        rintro rfl
        exact idle now rfl
      exact elsewhere ne
  | @closing k =>
      have ne : k ≠ key := fun same => apart (same ▸ rfl)
      exact elsewhere ne
  | closed => exact other.1
  | @announced _ event | @read _ event | @told _ event =>
      cases event with
      | closed => exact other.1
      | opened | failed => rfl
  | opened | reported | reopens | recloses | resweeps | all | one | others => rfl

/-- Only its own opening and closing change the phase of a session. -/
theorem phase_step_elsewhere (h : Hub) {c : Call} (other : c.concerns key = false)
    (idle : h.phase key = .created → c ≠ .openSession key) :
    (c.step h).1.phase key = h.phase key := by
  rw [phase, phase, session?_step]
  cases found : h.session? key with
  | none => rfl
  | some s =>
      have now : h.phase key = s.phase := by rw [phase, found]; rfl
      have kept : (c.edit key s).phase = s.phase := by
        cases c with
        | openSession k =>
            rw [Call.edit]
            split
            · rename_i same
              subst same
              rw [Session.markOpen_of_old fun created => idle (now.trans created) rfl]
            · rfl
        | finishClose k removed =>
            have ne : k ≠ key := by simpa [Call.concerns] using other
            rw [Call.edit, if_neg ne]
        | deliver k event index rest faults =>
            cases rest with
            | nil => rfl
            | cons l rest =>
                rw [Call.edit]
                split
                · exact (Session.Reaction.effect_keeps _ s).1
                · rfl
        | closeEach count keys =>
            cases keys with
            | nil => rfl
            | cons k keys =>
                rw [Call.edit]
                split
                · rfl
                · rfl
        | goLive | closeSession | announce | report | notify | closeAll => rfl
      exact kept

theorem not_live_step (h : Hub) (known : c ≠ .goLive key) (gone : key ∉ h.registry.live) :
    key ∉ (c.step h).1.registry.live := by
  have fewer := count_live_step h known
  rw [List.count_eq_zero.mpr gone] at fewer
  exact List.count_eq_zero.mp (Nat.le_zero.mp fewer)

/-- How far the opening of a session is, whatever calls are left: it is new, it is about to be
live, or it has been live. Nobody has had to do with it before. -/
inductive Rising (key : SessionKey) (h : Hub) (calls : List Call) (past : List (Hub × Call)) : Prop
  | new : h.phase key = .created → key ∉ h.registry.live → .openSession key ∈ calls →
      calls.filter (Call.about key) = [] → (∀ step ∈ past, step.2.about key = false) →
      Rising key h calls past
  | rising : h.phase key = .opened → key ∉ h.registry.live →
      calls.filter (Call.about key) = [.goLive key] → (∀ step ∈ past, step.2.about key = false) →
      Rising key h calls past
  /-- A call that is never made stands for whoever is still to close the session. -/
  | risen : Closing key h (calls ++ [.closeSession key]) past →
      Heralded key (calls.filter (Call.heralds key)) (readings key .opened past)
        (told key .opened past) → Rising key h calls past

theorem traces_of_not_about (quiet : ∀ step ∈ past, step.2.about key = false) :
    swaps key past = [] ∧ readings key .closed past = [] ∧ told key .closed past = []
      ∧ readings key .opened past = [] ∧ told key .opened past = [] := by
  have mute {α : Type} {look : Hub → Call → Option α}
      (silent : ∀ h c, c.about key = false → look h c = none) : trace look past = [] :=
    List.filterMap_eq_nil_iff.mpr fun step among => silent step.1 step.2 (quiet step among)
  have apart {c : Call} (other : c.about key = false) :
      c.concerns key = false ∧ c.heralds key = false := Bool.or_eq_false_iff.mp other
  exact ⟨mute fun h c other => (silent_of_apart h (apart other).1).1,
    mute fun h c other => (silent_of_apart h (apart other).1).2.2.1,
    (told_eq_trace ..).trans (mute fun h c other => (silent_of_apart h (apart other).1).2.1),
    mute fun h c other => (silent_of_not_heralds h (apart other).2).2,
    (told_eq_trace ..).trans (mute fun h c other => (silent_of_not_heralds h (apart other).2).1)⟩

theorem Rising.silent (rising : Rising key h calls past) (unread : readings key .closed past = []) :
    told key .closed past = [] := by
  cases rising with
  | new _ _ _ _ quiet | rising _ _ _ quiet => exact (traces_of_not_about quiet).2.2.1
  | risen closing =>
      have standing := closing.standing
      rw [unread] at standing
      generalize told key .closed past = heard, swaps key past = changes,
        List.filter (Call.critical key) _ = calls at standing ⊢
      cases standing with
      | live | removed | announcing | crossed => rfl

theorem about_goLive (key : SessionKey) : Call.about key (.goLive key) = true := by
  simp [Call.about, Call.concerns]

theorem ClosedOnceLive.not_yet (found : ClosedOnceLive key (past ++ [(h, c)]))
    (quiet : ∀ step ∈ past, step.2.about key = false) : c ≠ .closeSession key := by
  rintro rfl
  obtain ⟨step, among, live⟩ := found.last
  have silent := quiet step among
  rw [live, about_goLive] at silent
  exact absurd silent (by simp)

theorem filter_about_step (other : c.about key = false)
    (idle : h.phase key = .created → c ≠ .openSession key) (apart : c ≠ .closeSession key) :
    (before ++ (c.step h).2 ++ after).filter (Call.about key)
      = (before ++ c :: after).filter (Call.about key) := by
  have quiet : (c.step h).2.filter (Call.about key) = [] :=
    List.filter_eq_nil_iff.mpr fun m among =>
      ne_true_of_eq_false (not_about_of_left (left_of_step h c m among) other idle apart)
  rw [List.filter_append, List.filter_append, quiet, List.append_nil, List.filter_append,
    List.filter_cons_of_neg (ne_true_of_eq_false other)]

/-- The session goes live: from here on it can be closed. -/
theorem Rising.goes_live (opened : h.phase key = .opened)
    (left : (before ++ .goLive key :: after).filter (Call.about key) = [.goLive key])
    (quiet : ∀ step ∈ past, step.2.about key = false) :
    Rising key (Call.step h (.goLive key)).1 (before ++ (Call.step h (.goLive key)).2 ++ after)
      (past ++ [(h, .goLive key)]) := by
  obtain ⟨no_swap, no_reading, no_telling, unread, untold⟩ := traces_of_not_about quiet
  rw [List.filter_append, List.filter_cons_of_pos (about_goLive key)] at left
  obtain ⟨none_before, rest⟩ := (List.append_eq_singleton_iff.mp left).resolve_right (by simp)
  have none_after : after.filter (Call.about key) = [] := (List.cons.inj rest).2
  have others (m : Call) (among : m ∈ before ∨ m ∈ after) :
      m.concerns key = false ∧ m.heralds key = false := by
    refine Bool.or_eq_false_iff.mp (eq_false_of_ne_true ?_)
    rcases among with front | behind
    · exact List.filter_eq_nil_iff.mp none_before m front
    · exact List.filter_eq_nil_iff.mp none_after m behind
  have fresh : ∀ m ∈ before ++ [Call.announce key .opened] ++ after ++ [.closeSession key],
      m.concerns key = false := by
    intro m among
    simp only [List.mem_append, List.mem_singleton] at among
    rcases among with ((front | rfl) | behind) | rfl
    · exact (others m (.inl front)).1
    · rfl
    · exact (others m (.inr behind)).1
    · rfl
  have heralds : (before ++ [Call.announce key .opened] ++ after).filter (Call.heralds key)
      = [.announce key .opened] := by
    have mute {calls : List Call} (none_of : ∀ m ∈ calls, m.heralds key = false) :
        calls.filter (Call.heralds key) = [] :=
      List.filter_eq_nil_iff.mpr fun m among => ne_true_of_eq_false (none_of m among)
    rw [List.filter_append, List.filter_append, mute fun m front => (others m (.inl front)).2,
      mute fun m behind => (others m (.inr behind)).2]
    simp [Call.heralds]
  refine .risen ⟨?_, fun _ => fresh, fun _ => ⟨.closeSession key, by simp, by simp [Call.closes]⟩⟩
    ?_
  · rw [swaps_snoc, readings_snoc, told_snoc, no_swap, no_reading, no_telling]
    refine (filter_critical_of_apart key fresh).symm ▸ Standing.live ?_ opened
    exact List.mem_append_right _ (List.mem_singleton.mpr rfl)
  · rw [readings_snoc, told_snoc, unread, untold]
    exact heralds.symm ▸ Heralded.coming (.inl rfl)

theorem Rising.step (rising : Rising key h (before ++ c :: after) past)
    (found : ClosedOnceLive key (past ++ [(h, c)])) :
    Rising key (c.step h).1 (before ++ (c.step h).2 ++ after) (past ++ [(h, c)]) := by
  have later (quiet : ∀ step ∈ past, step.2.about key = false) (other : c.about key = false) :
      ∀ step ∈ past ++ [(h, c)], step.2.about key = false := by
    intro step among
    rcases List.mem_append.mp among with earlier | now
    · exact quiet step earlier
    · rw [List.mem_singleton.mp now]
      exact other
  cases rising with
  | new created gone opens none_about quiet =>
      have other : c.about key = false :=
        eq_false_of_ne_true (List.filter_eq_nil_iff.mp none_about c (by simp))
      have known : c ≠ .goLive key := by
        rintro rfl
        rw [about_goLive] at other
        exact absurd other (by simp)
      by_cases own : c = .openSession key
      · subst own
        have step : Call.step h (.openSession key)
            = (h.modify key fun s => s.markOpen.1, [.goLive key]) := by rw [Call.step, created]
        rw [List.filter_append, List.filter_cons_of_neg (ne_true_of_eq_false other),
          List.append_eq_nil_iff] at none_about
        rw [step]
        refine .rising ?_ gone ?_ (later quiet other)
        · rw [phase_markOpen h created, if_pos rfl]
        · rw [List.filter_append, List.filter_append, none_about.1, none_about.2]
          simp [about_goLive]
      · have apart := found.not_yet quiet
        refine .new ((phase_step_elsewhere h (Bool.or_eq_false_iff.mp other).1 fun _ => own).trans
          created) (not_live_step h known gone) ?_ ?_ (later quiet other)
        · rcases List.mem_append.mp opens with front | behind
          · exact List.mem_append_left _ (List.mem_append_left _ front)
          · exact List.mem_append_right _ ((List.mem_cons.mp behind).resolve_left (Ne.symm own))
        · rw [filter_about_step other (fun _ => own) apart, none_about]
  | rising opened gone left quiet =>
      by_cases own : c = .goLive key
      · subst own
        exact Rising.goes_live opened left quiet
      · have other : c.about key = false := by
          refine eq_false_of_ne_true fun about => own ?_
          have among : c ∈ (before ++ c :: after).filter (Call.about key) :=
            List.mem_filter.mpr ⟨by simp, about⟩
          rw [left] at among
          exact List.mem_singleton.mp among
        have idle (created : h.phase key = .created) : c ≠ .openSession key :=
          absurd (opened.symm.trans created) (by simp)
        refine .rising ((phase_step_elsewhere h (Bool.or_eq_false_iff.mp other).1 idle).trans
          opened) (not_live_step h own gone) ?_ (later quiet other)
        rw [filter_about_step other idle (found.not_yet quiet), left]
  | risen closing heralded =>
      rw [List.append_assoc, List.cons_append] at closing
      refine .risen ?_ ?_
      · have moved := closing.step
        rwa [← List.append_assoc] at moved
      · rw [readings_snoc, told_snoc]
        exact heralded.step closing.known

/-! ### A whole run -/

/-- The opening of a new session, under any schedule of tasks of which one opens it. -/
theorem rising_history {tasks : List (List Call)} {schedule : List Nat}
    (new : h.phase key = .created) (unborn : key ∉ h.registry.live)
    (entries : ∀ task ∈ tasks, ∀ c ∈ task, c.isEntry = true)
    (opening : ∃ task ∈ tasks, .openSession key ∈ task)
    (found : ClosedOnceLive key (h.history tasks schedule)) :
    Rising key (h.interleave tasks schedule).1 (h.interleave tasks schedule).2.flatten
      (h.history tasks schedule) := by
  have begun : Rising key h tasks.flatten [] := by
    refine .new new unborn (List.mem_flatten.mpr opening) ?_ (by simp)
    refine List.filter_eq_nil_iff.mpr fun c among => ne_true_of_eq_false ?_
    obtain ⟨task, there, within⟩ := List.mem_flatten.mp among
    have entry := entries task there c within
    cases c with
    | openSession | closeSession | report | closeAll => rfl
    | goLive | finishClose | announce | notify | deliver | closeEach =>
        exact absurd entry (by simp [Call.isEntry])
  have kept := @interleave_keeps
    (fun h calls past => ClosedOnceLive key past → Rising key h calls past)
    (fun _ _ _ _ _ inv found => (inv found.of_append).step found) _ _ _ (fun _ => begun) schedule
  rw [List.nil_append] at kept
  exact kept found

theorem Rising.done (rising : Rising key h [] past) :
    (∃ listeners, readings key .opened past = [listeners] ∧ told key .opened past = listeners)
      ∧ (readings key .closed past = [told key .closed past]
        ∨ readings key .closed past = [] ∧ told key .closed past = []) := by
  cases rising with
  | new _ _ opens => exact absurd opens List.not_mem_nil
  | rising _ _ left => exact absurd left (by simp)
  | risen closing heralded =>
      have standing := closing.standing
      have silent : ([] ++ [Call.closeSession key]).filter (Call.critical key) = [] := rfl
      rw [silent] at standing
      rw [List.filter_nil] at heralded
      generalize readings key .opened past = openings, told key .opened past = hearers,
        readings key .closed past = closings, told key .closed past = heard,
        swaps key past = changes at standing heralded ⊢
      cases heralded with
      | told =>
          refine ⟨⟨_, rfl, rfl⟩, ?_⟩
          cases standing with
          | live | crossed => exact .inr ⟨rfl, rfl⟩
          | announced => exact .inl rfl

theorem mem_readings {event : Session.Event} {listeners : List Session.Listener}
    (among : listeners ∈ readings key event past) :
    ∃ step ∈ past, step.1.registry.listeners = listeners := by
  obtain ⟨step, there, reads⟩ := List.mem_filterMap.mp among
  exact ⟨step, there, (Call.reads?_eq_some.mp reads).2⟩

theorem told_of_prefix {event : Session.Event} {earlier : List (Hub × Call)}
    (first : earlier <+: past) {l : Session.Listener} (heard : l ∈ told key event earlier) :
    l ∈ told key event past := by
  rw [told_eq_trace] at heard ⊢
  exact (first.filterMap _).subset heard

/-- A new session that some task opens, and others close as soon as they find it live. When all
have returned, the opening has been announced once, to each registration that the announcement
read, and so to all who listened throughout; the closing has been announced at most once. Whoever
had been told of the opening when an announcement of the closing came to read who listens has heard
of the opening first. -/
theorem opened_heard_first (h : Hub) (tasks : List (List Call)) (schedule : List Nat)
    (key : SessionKey) (new : h.phase key = .created) (unborn : key ∉ h.registry.live)
    (entries : ∀ task ∈ tasks, ∀ c ∈ task, c.isEntry = true)
    (opening : ∃ task ∈ tasks, .openSession key ∈ task)
    (found : ClosedOnceLive key (h.history tasks schedule))
    (returned : ∀ task ∈ (h.interleave tasks schedule).2, task = []) :
    let past := h.history tasks schedule
    (∃ listeners, readings key .opened past = [listeners] ∧ told key .opened past = listeners
        ∧ ∀ l, (∀ step ∈ past, l ∈ step.1.registry.listeners) → l ∈ listeners)
      ∧ (readings key .closed past = [told key .closed past]
        ∨ readings key .closed past = [] ∧ told key .closed past = [])
      ∧ ∀ before l, before <+: past → readings key .closed before = [] →
        l ∈ told key .opened before → OpenedFirst key l past := by
  intro past
  have done : (h.interleave tasks schedule).2.flatten = [] := List.flatten_eq_nil_iff.mpr returned
  have ended := rising_history new unborn entries opening found
  rw [done] at ended
  obtain ⟨⟨listeners, reading, all_told⟩, closing⟩ := ended.done
  refine ⟨⟨listeners, reading, all_told, ?_⟩, closing, ?_⟩
  · intro l throughout
    have among : listeners ∈ readings key .opened past :=
      reading.symm ▸ List.mem_singleton.mpr rfl
    obtain ⟨step, there, same⟩ := mem_readings among
    exact same ▸ throughout step there
  · intro before l first unread heard earlier begun closed
    rcases List.prefix_or_prefix_of_prefix begun first with within | beyond
    · -- So far no announcement of the closing has read who listens.
      obtain ⟨n, rfl⟩ := exists_take begun
      obtain ⟨later, split⟩ := begun
      have found_so_far : ClosedOnceLive key (h.history tasks (schedule.take n) ++ later) :=
        split ▸ found
      have rising := rising_history new unborn entries opening found_so_far.of_append
      have unread_so_far : readings key .closed (h.history tasks (schedule.take n)) = [] :=
        List.prefix_nil.mp (unread ▸ within.filterMap _)
      rw [rising.silent unread_so_far] at closed
      exact absurd closed List.not_mem_nil
    · exact told_of_prefix beyond heard

/-- All sessions are closed when one of two listeners has been told of an opening. -/
theorem opened_heard_first_by_one_of_two :
    let h := withNewSession [.logging, { name := "late" }]
    let tasks : List (List Call) := [[.openSession 0], [.closeAll []]]
    let past := h.history tasks [0, 0, 0, 0, 0, 1, 1, 1, 1, 1, 1, 1, 1, 1, 1, 0, 0]
    .logging ∈ told 0 .closed past ∧ OpenedFirst 0 .logging past := by
  intro h tasks past
  obtain ⟨-, -, first⟩ := opened_heard_first h tasks
    [0, 0, 0, 0, 0, 1, 1, 1, 1, 1, 1, 1, 1, 1, 1, 0, 0] 0 (by decide) (by decide) (by decide)
    (by decide) (by decide) (by decide)
  exact ⟨by decide, first _ .logging (history_take_first h tasks _ 5) (by decide) (by decide)⟩

/-- Two ways for a listener to hear that a session is closed before it hears that it is open: a
listener before it closes the session when it is told of the opening, or another task closes the
session as soon as it is live. -/
theorem closed_heard_first :
    let l : Session.Listener := .logging
    let closer : Session.Listener := { name := "closer", opened := .closeSession none }
    let hears (h : Hub) (tasks : List (List Call)) (schedule : List Nat) : Prop :=
      h.phase 0 = .created ∧ ClosedOnceLive 0 (h.history tasks schedule)
        ∧ (∀ task ∈ (h.interleave tasks schedule).2, task = [])
        ∧ (∀ step ∈ h.history tasks schedule, l ∈ step.1.registry.listeners)
        ∧ told 0 .closed (h.history tasks schedule) = h.registry.listeners
        ∧ told 0 .opened (h.history tasks schedule) = h.registry.listeners
        ∧ ¬ OpenedFirst 0 l (h.history tasks schedule)
    hears (withNewSession [closer, l]) [[.openSession 0]] (.replicate 14 0)
      ∧ hears (withNewSession [l]) [[.openSession 0], [.closeSession 0]]
        [0, 0, 1, 1, 1, 1, 1, 1, 0, 0, 0, 0] := by
  intro l closer hears
  have late {h : Hub} {tasks : List (List Call)} {schedule : List Nat} (n : Nat)
      (closed : l ∈ told 0 .closed (h.history tasks (schedule.take n)))
      (unheard : l ∉ told 0 .opened (h.history tasks (schedule.take n))) :
      ¬ OpenedFirst 0 l (h.history tasks schedule) :=
    fun first => unheard (first _ (history_take_first h tasks schedule n) closed)
  exact ⟨⟨by decide, by decide, by decide, by decide, by decide, by decide,
      late 12 (by decide) (by decide)⟩,
    ⟨by decide, by decide, by decide, by decide, by decide, by decide,
      late 8 (by decide) (by decide)⟩⟩

end Hub
end Gateway
