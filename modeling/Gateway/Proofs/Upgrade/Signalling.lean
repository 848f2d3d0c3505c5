import Gateway.Proofs.Upgrade.Completing
import Gateway.Upgrade.Handles

/-!
Completions under any number of handles. A signal counts the handles that are held. While there are
some, nothing but the first report has reached the callback; when the last one is given up, the
callback has run.
-/
namespace Gateway.Upgrade

theorem Completion.calls_fire (c : Completion) (o : Outcome) :
    (c.fire o).1.calls = c.calls ++ (if c.armed then some o else none).toList := by
  rw [fire]
  by_cases armed : c.armed = true
  · rw [if_pos armed, if_pos armed]
    rfl
  · rw [if_neg armed, if_neg armed, Option.toList_none, List.append_nil]

namespace Signal

/-- A mailbox has what the callback has put into it, until that is read. -/
def Posted (calls : List Outcome) : Option Mailbox → Prop
  | none => True
  | some .waiting => calls = []
  | some (.full o) => calls = [o]
  | some .emptied => ∃ o, calls = [o]

/-- The runs of a callback as whoever asks what fired sees them. A channel shows none. -/
def runs (s : Signal) : List (String × Outcome) :=
  match s.mailbox with
  | none => s.completion.calls.map (s.name, ·)
  | some _ => []

/-- A signal with a number of handles, behind some reports on them. -/
structure Tracks (s : Signal) (n : Nat) (told : List Outcome) : Prop where
  handles : s.completion.handles = n
  settled : n = 0 → s.completion.Settled told (.failed .cancelled)
  follows : n ≠ 0 → s.completion.Follows told
  posted : Posted s.completion.calls s.mailbox

variable {s : Signal} {c : Completion} {n n' : Nat} {told told' : List Outcome}

theorem calls_short (settled : n = 0 → c.Settled told (.failed .cancelled))
    (follows : n ≠ 0 → c.Follows told) : c.calls.length ≤ 1 := by
  by_cases none_left : n = 0
  · rw [(settled none_left).1]
    exact Nat.le_refl 1
  · rw [(follows none_left).1]
    cases told.head? with
    | none => exact Nat.zero_le 1
    | some o => exact Nat.le_refl 1

theorem Tracks.settle (h : s.Tracks n told) (new : Option Outcome)
    (calls : c.calls = s.completion.calls ++ new.toList) (handles : c.handles = n')
    (settled : n' = 0 → c.Settled told' (.failed .cancelled))
    (follows : n' ≠ 0 → c.Follows told') :
    (s.settle c).1.Tracks n' told' ∧ (s.settle c).1.runs = s.runs ++ (s.settle c).2.fired := by
  have short := calls_short settled follows
  have posted := h.posted
  cases new with
  | none =>
      have same : c.calls = s.completion.calls := calls.trans (List.append_nil _)
      have result : s.settle c = ({ s with completion := c }, {}) := by
        rw [Signal.settle, same, List.drop_length]
      rw [result]
      refine ⟨⟨handles, settled, follows, ?_⟩, ?_⟩
      · change Posted c.calls s.mailbox
        rwa [same]
      · rw [List.append_nil, runs, runs]
        dsimp only
        rw [same]
  | some o =>
      -- A callback that runs now has not run before.
      have none_yet : s.completion.calls = [] := by
        rw [calls, List.length_append] at short
        exact List.eq_nil_of_length_eq_zero (Nat.le_zero.mp (Nat.le_of_succ_le_succ short))
      rw [none_yet] at posted
      have first : c.calls = [o] := by
        rw [calls, none_yet]
        rfl
      obtain ⟨completion, name, mailbox⟩ := s
      dsimp only at none_yet posted
      cases mailbox with
      | none =>
          have result : Signal.settle ⟨completion, name, none⟩ c
              = (⟨c, name, none⟩, { fired := [(name, o)] }) := by
            simp [Signal.settle, first, none_yet]
          rw [result]
          refine ⟨⟨handles, settled, follows, trivial⟩, ?_⟩
          simp [runs, first, none_yet]
      | some m =>
          cases m with
          | waiting =>
              have result : Signal.settle ⟨completion, name, some .waiting⟩ c
                  = (⟨c, name, some (.full o)⟩, {}) := by
                simp [Signal.settle, first, none_yet]
              rw [result]
              exact ⟨⟨handles, settled, follows, first⟩, rfl⟩
          | full o' => exact absurd posted (by simp [Posted])
          | emptied => exact absurd posted (by simp [Posted])

theorem Tracks.report (h : s.Tracks n told) (held : n ≠ 0) (o : Outcome) :
    (s.settle (s.completion.fire o).1).1.Tracks n (told ++ [o])
      ∧ (s.settle (s.completion.fire o).1).1.runs
        = s.runs ++ (s.settle (s.completion.fire o).1).2.fired := by
  have handles : (s.completion.fire o).1.handles = n := by
    rw [← h.handles, Completion.fire]
    by_cases armed : s.completion.armed = true
    · rw [if_pos armed]
    · rw [if_neg armed]
  exact h.settle _ (s.completion.calls_fire o) handles (fun none_left => absurd none_left held)
    fun _ => (h.follows held).fire o

theorem Tracks.clone (h : s.Tracks n told) (held : n ≠ 0) :
    (s.settle s.completion.clone).1.Tracks (n + 1) told
      ∧ (s.settle s.completion.clone).1.runs
        = s.runs ++ (s.settle s.completion.clone).2.fired :=
  h.settle none (List.append_nil _).symm (congrArg Nat.succ h.handles)
    (fun none_left => absurd none_left (Nat.succ_ne_zero n)) fun _ => h.follows held

theorem Tracks.drop (h : s.Tracks (n + 1) told) :
    (s.settle s.completion.drop).1.Tracks n told
      ∧ (s.settle s.completion.drop).1.runs
        = s.runs ++ (s.settle s.completion.drop).2.fired := by
  have follows : ({ s.completion with handles := n } : Completion).Follows told :=
    h.follows (Nat.succ_ne_zero n)
  have fewer : s.completion.handles - 1 = n := by rw [h.handles, Nat.add_sub_cancel]
  by_cases cancels : s.completion.cancelsOnDrop = true
  · obtain ⟨last, armed⟩ := Bool.and_eq_true_iff.mp cancels
    have none_left : n = 0 := by
      rw [h.handles] at last
      exact Nat.succ.inj (beq_iff_eq.mp last)
    have dropped : s.completion.drop
        = (({ s.completion with handles := n } : Completion).fire (.failed .cancelled)).1 := by
      rw [Completion.drop, if_pos cancels, fewer]
    refine h.settle (some (.failed .cancelled)) ?_ ?_ ?_ fun some_left => absurd none_left some_left
    · rw [dropped, Completion.calls_fire, if_pos armed]
    · rw [dropped, Completion.fire, if_pos armed]
    · intro _
      rw [dropped]
      exact follows.settle (.failed .cancelled)
  · have dropped : s.completion.drop = { s.completion with handles := n } := by
      rw [Completion.drop, if_neg cancels, fewer]
    refine h.settle none ?_ ?_ ?_ ?_
    · rw [dropped, Option.toList_none, List.append_nil]
    · rw [dropped]
    · intro none_left
      have completed : ({ s.completion with handles := n } : Completion).isCompleted = true := by
        have last : s.completion.handles = 1 := by rw [h.handles, none_left]
        simpa [Completion.cancelsOnDrop, Completion.isCompleted, last] using cancels
      rw [dropped]
      exact follows.settled completed (.failed .cancelled)
    · intro _
      rw [dropped]
      exact follows

theorem tracks_new (name : String) {mailbox : Option Mailbox} (empty : Posted [] mailbox) :
    Signal.Tracks { name, mailbox } 1 [] where
  handles := rfl
  settled none_left := absurd none_left Nat.one_ne_zero
  follows _ := ⟨rfl, rfl⟩
  posted := empty

end Signal

def HandleOp.tells (h : Handles) (place : Nat) : HandleOp → List Outcome
  | .report name o => if h.held.lookup name = some place then [o] else []
  | .callback _ | .channel _ | .clone _ _ | .isCompleted _ | .describe _ | .drop _ | .receive _
  | .dropReader _ => []

namespace Handles

/-- What operations report on a signal, by any of its handles, oldest first. -/
def reports (h : Handles) (place : Nat) : List HandleOp → List Outcome
  | [] => []
  | op :: rest =>
    op.tells h place ++ (h.perform op).1.reports place rest

def holders (h : Handles) (place : Nat) : Nat := h.held.countP (·.2 == place)

def runs (h : Handles) : List (String × Outcome) := h.signals.flatMap Signal.runs

/-- Every signal has the handles that are held of it, and some that have no name yet. -/
structure Tracks (h : Handles) (spare : Nat → Nat) (told : Nat → List Outcome) : Prop where
  distinct : (h.held.map (·.1)).Nodup
  placed : ∀ p ∈ h.held, p.2 < h.signals.length
  signals : ∀ place (s : Signal), h.signals[place]? = some s →
    s.Tracks (h.holders place + spare place) (told place)
  unmade : ∀ place, h.signals.length ≤ place → told place = []

def Steps (h h' : Handles) (fired : List (String × Outcome)) : Prop :=
  h'.runs.Perm (h.runs ++ fired)

variable {h : Handles} {spare : Nat → Nat} {told : Nat → List Outcome} {place : Nat} {s : Signal}
  {name : String}

theorem Steps.refl (h : Handles) : Steps h h [] := by
  rw [Steps, List.append_nil]

theorem Steps.trans {h' h'' : Handles} {fired more : List (String × Outcome)}
    (first : Steps h h' fired) (second : Steps h' h'' more) : Steps h h'' (fired ++ more) := by
  rw [Steps, ← List.append_assoc]
  exact List.Perm.trans second (List.Perm.append_right more first)

theorem steps_of_signals {h' : Handles} (same : h'.signals = h.signals) : Steps h h' [] := by
  rw [Steps, runs, runs, same, List.append_nil]

theorem steps_set {s' : Signal} {fired : List (String × Outcome)}
    (found : h.signals[place]? = some s) (runs : s'.runs = s.runs ++ fired) :
    Steps h { h with signals := h.signals.set place s' } fired := by
  obtain ⟨within, rfl⟩ := List.getElem?_eq_some_iff.mp found
  have before : h.signals.flatMap Signal.runs = (h.signals.take place).flatMap Signal.runs
      ++ (h.signals[place].runs ++ (h.signals.drop (place + 1)).flatMap Signal.runs) := by
    rw [← List.flatMap_cons, List.getElem_cons_drop, ← List.flatMap_append,
      List.take_append_drop]
  rw [Steps, Handles.runs, Handles.runs, before]
  dsimp only
  rw [List.set_eq_take_append_cons_drop, if_pos within, List.flatMap_append, List.flatMap_cons,
    runs, List.perm_iff_count]
  intro run
  simp only [List.count_append]
  omega

theorem change_eq (found : h.signals[place]? = some s) (f : Completion → Completion) :
    h.change place f = ({ h with signals := h.signals.set place (s.settle (f s.completion)).1 },
      (s.settle (f s.completion)).2) := by
  rw [change, found]

theorem Tracks.set {s' : Signal} {held' : List (String × Nat)} {spare' : Nat → Nat}
    {told' : Nat → List Outcome} (t : h.Tracks spare told) (found : h.signals[place]? = some s)
    (distinct : (held'.map (·.1)).Nodup) (among : ∀ p ∈ held', p.2 < h.signals.length)
    (here : s'.Tracks (held'.countP (·.2 == place) + spare' place) (told' place))
    (elsewhere : ∀ other, other ≠ place →
      held'.countP (·.2 == other) + spare' other = h.holders other + spare other
        ∧ told' other = told other) :
    Tracks { h with signals := h.signals.set place s', held := held' } spare' told' where
  distinct := distinct
  placed p hp := by
    rw [List.length_set]
    exact among p hp
  signals other s'' found' := by
    dsimp only at found'
    rw [List.getElem?_set] at found'
    by_cases same : place = other
    · subst same
      have within := (List.getElem?_eq_some_iff.mp found).1
      rw [if_pos rfl, if_pos within] at found'
      obtain rfl := Option.some.inj found'
      exact here
    · rw [if_neg same] at found'
      obtain ⟨count, reports⟩ := elsewhere other (Ne.symm same)
      have before := t.signals other s'' found'
      rw [holders]
      rwa [count, reports]
  unmade other beyond := by
    rw [List.length_set] at beyond
    have within := (List.getElem?_eq_some_iff.mp found).1
    rw [(elsewhere other (by omega)).2]
    exact t.unmade other beyond

theorem held_split (t : h.Tracks spare told) (found : h.held.lookup name = some place) :
    ∃ front back, h.held = front ++ (name, place) :: back
      ∧ h.held.filter (·.1 != name) = front ++ back ∧ ∃ s, h.signals[place]? = some s := by
  obtain ⟨front, back, split, apart⟩ := List.lookup_eq_some_iff.mp found
  have distinct := t.distinct
  rw [split, List.map_append, List.map_cons] at distinct
  have behind : ∀ p ∈ back, p.1 ≠ name := by
    intro p hp same
    have later := (List.nodup_append.mp distinct).2.1
    exact (List.nodup_cons.mp later).1 (List.mem_map.mpr ⟨p, hp, same⟩)
  have within : place < h.signals.length := t.placed (name, place) (by simp [split])
  refine ⟨front, back, split, ?_, _, List.getElem?_eq_getElem within⟩
  have keeps_front : front.filter (·.1 != name) = front := by
    rw [List.filter_eq_self]
    intro p hp
    simpa [bne_iff_ne, ne_comm] using apart p hp
  have keeps_back : back.filter (·.1 != name) = back := by
    rw [List.filter_eq_self]
    intro p hp
    simpa [bne_iff_ne] using behind p hp
  rw [split, List.filter_append, List.filter_cons_of_neg (by simp), keeps_front, keeps_back]

theorem Tracks.release (t : h.Tracks spare told) (name : String) :
    (h.release name).1.Tracks spare told ∧ Steps h (h.release name).1 (h.release name).2.2.fired
      ∧ (h.release name).1.held = h.held.filter (·.1 != name)
      ∧ (h.release name).1.signals.length = h.signals.length := by
  rw [Handles.release]
  cases found : h.held.lookup name with
  | none =>
      refine ⟨t, .refl h, ?_, rfl⟩
      symm
      rw [List.filter_eq_self]
      intro p hp
      simpa [bne_iff_ne, ne_comm] using List.lookup_eq_none_iff.mp found p hp
  | some place =>
      obtain ⟨front, back, split, filtered, s, at_place⟩ := held_split t found
      have left : ({ h with held := front ++ back } : Handles).signals[place]? = some s := at_place
      have count (other : Nat) : h.holders other
          = (front ++ back).countP (·.2 == other) + if other = place then 1 else 0 := by
        rw [holders, split, List.countP_append, List.countP_append, List.countP_cons]
        by_cases same : other = place
        · simp [same]
          omega
        · simp [same, Ne.symm same]
      have tracks := t.signals place s at_place
      rw [count, if_pos rfl, Nat.add_right_comm] at tracks
      obtain ⟨dropped, runs⟩ := tracks.drop
      have names : ((front ++ back).map (·.1)).Nodup := by
        rw [← filtered]
        exact t.distinct.sublist (List.filter_sublist.map _)
      dsimp only
      rw [filtered, change_eq left]
      refine ⟨?_, steps_set at_place runs, rfl, List.length_set⟩
      refine t.set at_place names ?_ dropped ?_
      · intro p hp
        rw [← filtered] at hp
        exact t.placed p (List.mem_filter.mp hp).1
      · intro other differ
        rw [count, if_neg differ]
        exact ⟨rfl, rfl⟩

theorem Tracks.assign (t : h.Tracks (fun p => if p = place then 1 else 0) told)
    (within : place < h.signals.length) (name : String) :
    (h.assign name place).1.Tracks (fun _ => 0) told
      ∧ Steps h (h.assign name place).1 (h.assign name place).2.fired := by
  obtain ⟨released, steps, held, length⟩ := t.release name
  rw [Handles.assign]
  generalize h.release name = r at released steps held length
  obtain ⟨h', was_held, effects⟩ := r
  dsimp only at released steps held length ⊢
  have named : Steps h' { h' with held := h'.held ++ [(name, place)] } [] := steps_of_signals rfl
  have fired := steps.trans named
  rw [List.append_nil] at fired
  refine ⟨⟨?_, ?_, ?_, released.unmade⟩, fired⟩
  · have free : name ∉ h'.held.map (·.1) := by
      rw [held, List.mem_map]
      rintro ⟨p, hp, same⟩
      have other := (List.mem_filter.mp hp).2
      simp [same] at other
    rw [List.map_append, List.map_singleton]
    refine List.nodup_append.mpr ⟨released.distinct, by simp, ?_⟩
    intro other among _ is_name same
    rw [same, List.mem_singleton.mp is_name] at among
    exact free among
  · intro p hp
    rcases List.mem_append.mp hp with old | new
    · exact released.placed p old
    · rw [List.mem_singleton.mp new]
      dsimp only
      rwa [length]
  · intro other s found
    have tracks := released.signals other s found
    rw [holders] at tracks ⊢
    rw [List.countP_append, List.countP_singleton]
    by_cases same : other = place
    · subst same
      simpa using tracks
    · simpa [same, Ne.symm same] using tracks

/-! ### Operations -/

theorem Tracks.made (t : h.Tracks (fun _ => 0) told) {new : Signal} (fresh : new.Tracks 1 [])
    (readers : List (String × Nat)) :
    Tracks { h with signals := h.signals ++ [new], readers }
      (fun p => if p = h.signals.length then 1 else 0) told where
  distinct := t.distinct
  placed p hp := by
    have within := t.placed p hp
    rw [List.length_append]
    omega
  signals place s found := by
    dsimp only at found
    by_cases last : place = h.signals.length
    · subst last
      rw [List.getElem?_concat_length] at found
      obtain rfl := Option.some.inj found
      have unused : h.holders h.signals.length = 0 := by
        rw [holders, List.countP_eq_zero]
        intro p hp here
        have within := t.placed p hp
        have same : p.2 = h.signals.length := by simpa using here
        omega
      rw [holders] at unused ⊢
      rw [unused, t.unmade _ (Nat.le_refl _), if_pos rfl]
      exact fresh
    · have within : place < h.signals.length := by
        have bound := (List.getElem?_eq_some_iff.mp found).1
        rw [List.length_append, List.length_singleton] at bound
        omega
      rw [List.getElem?_append_left within] at found
      rw [if_neg last]
      exact t.signals place s found
  unmade place beyond := by
    rw [List.length_append] at beyond
    exact t.unmade place (by omega)

theorem steps_made {new : Signal} (silent : new.runs = []) (readers : List (String × Nat)) :
    Steps h { h with signals := h.signals ++ [new], readers } [] := by
  rw [Steps, runs, runs, List.append_nil]
  dsimp only
  rw [List.flatMap_append, List.flatMap_singleton, silent, List.append_nil]

theorem Tracks.make (t : h.Tracks (fun _ => 0) told) (name : String) {new : Signal}
    (fresh : new.Tracks 1 []) (silent : new.runs = []) (readers : List (String × Nat)) :
    let made : Handles := { h with signals := h.signals ++ [new], readers }
    (made.assign name h.signals.length).1.Tracks (fun _ => 0) told
      ∧ Steps h (made.assign name h.signals.length).1
        (made.assign name h.signals.length).2.fired := by
  intro made
  have within : h.signals.length < made.signals.length := by
    rw [List.length_append]
    exact Nat.lt_succ_self _
  obtain ⟨tracks, fired⟩ := (t.made fresh readers).assign within name
  exact ⟨tracks, (steps_made silent readers).trans fired⟩

/-- A name in use is one handle at least, so nothing but the first report has reached the
callback. -/
theorem Tracks.held (t : h.Tracks (fun _ => 0) told) (found : h.held.lookup name = some place) :
    ∃ s, h.signals[place]? = some s ∧ h.holders place ≠ 0
      ∧ s.Tracks (h.holders place) (told place) := by
  obtain ⟨front, back, split, -, s, at_place⟩ := held_split t found
  refine ⟨s, at_place, ?_, t.signals place s at_place⟩
  rw [holders, split, List.countP_append, List.countP_cons_of_pos (by simp)]
  omega

theorem Tracks.cloning (t : h.Tracks (fun _ => 0) told) {source : String}
    (found : h.held.lookup source = some place) (name : String) :
    let cloned := (h.change place Completion.clone).1
    (cloned.assign name place).1.Tracks (fun _ => 0) told
      ∧ Steps h (cloned.assign name place).1 (cloned.assign name place).2.fired := by
  intro cloned
  obtain ⟨s, at_place, some_held, tracks⟩ := t.held found
  obtain ⟨more, runs⟩ := tracks.clone some_held
  have changed := change_eq at_place Completion.clone
  have silent : (s.settle s.completion.clone).2.fired = [] := by
    rw [Signal.settle, Completion.clone, List.drop_length]
  have copied : cloned.Tracks (fun p => if p = place then 1 else 0) told := by
    change (h.change place Completion.clone).1.Tracks _ _
    rw [changed]
    refine t.set at_place t.distinct t.placed ?_ ?_
    · rw [if_pos rfl]
      exact more
    · intro other differ
      rw [if_neg differ]
      exact ⟨rfl, rfl⟩
  have within : place < cloned.signals.length := by
    change place < (h.change place Completion.clone).1.signals.length
    rw [changed, List.length_set]
    exact (List.getElem?_eq_some_iff.mp at_place).1
  have stepped : Steps h cloned [] := by
    change Steps h (h.change place Completion.clone).1 []
    rw [changed, ← silent]
    exact steps_set at_place runs
  obtain ⟨assigned, fired⟩ := copied.assign within name
  exact ⟨assigned, stepped.trans fired⟩

theorem completion?_of_held (found : h.held.lookup name = some place)
    (at_place : h.signals[place]? = some s) : h.completion? name = some s.completion := by
  simp [completion?, found, at_place]

theorem Tracks.report (t : h.Tracks (fun _ => 0) told) (name : String) (o : Outcome) :
    (h.report name o).1.Tracks (fun _ => 0)
        (fun p => told p ++ (HandleOp.report name o).tells h p)
      ∧ Steps h (h.report name o).1 (h.report name o).2.2.fired := by
  cases found : h.held.lookup name with
  | none =>
      have silent : (fun p => told p ++ (HandleOp.report name o).tells h p) = told := by
        funext p
        rw [HandleOp.tells, found, if_neg nofun, List.append_nil]
      rw [silent, Handles.report, found]
      exact ⟨t, .refl h⟩
  | some place =>
      obtain ⟨s, at_place, some_held, tracks⟩ := t.held found
      obtain ⟨reported, runs⟩ := tracks.report some_held o
      have after : (h.report name o).1 = (h.change place fun c => (c.fire o).1).1
          ∧ (h.report name o).2.2.fired = (h.change place fun c => (c.fire o).1).2.fired := by
        rw [Handles.report, found, completion?_of_held found at_place]
        dsimp only
        split
        · exact ⟨rfl, rfl⟩
        · exact ⟨rfl, rfl⟩
      rw [after.1, after.2, change_eq at_place]
      refine ⟨t.set at_place t.distinct t.placed ?_ ?_, steps_set at_place runs⟩
      · rw [HandleOp.tells, found, if_pos rfl]
        exact reported
      · intro other differ
        rw [HandleOp.tells, found, if_neg fun same => differ (Option.some.inj same).symm]
        exact ⟨rfl, List.append_nil _⟩

theorem Tracks.answer (t : h.Tracks (fun _ => 0) told) (found : h.held.lookup name = some place)
    (o : Outcome) : (told place = [] → (h.report name o).2.1 = .done)
      ∧ (told place ≠ [] → h.report name o = (h, .refused, { log := [Completion.refusal o] })) := by
  obtain ⟨s, at_place, some_held, tracks⟩ := t.held found
  have armed := (tracks.follows some_held).2
  rw [Handles.report, found, completion?_of_held found at_place]
  dsimp only
  constructor
  · intro first
    rw [first, List.isEmpty_nil] at armed
    have taken : (s.completion.fire o).2 = true := by
      rw [Completion.fire, if_pos armed]
    rw [if_pos taken]
  · intro spent
    have refused : s.completion.fire o = (s.completion, false) := by
      rw [Completion.fire, armed, if_neg (by simpa using spent)]
    have still : h.change place (fun c => (c.fire o).1) = (h, {}) := by
      obtain ⟨within, rfl⟩ := List.getElem?_eq_some_iff.mp at_place
      rw [change_eq at_place, refused, Signal.settle, List.drop_length]
      dsimp only
      rw [List.set_getElem_self]
    rw [still, refused, if_neg Bool.false_ne_true]

theorem Tracks.receive (t : h.Tracks (fun _ => 0) told) (name : String) :
    (h.receive name).1.Tracks (fun _ => 0) told ∧ Steps h (h.receive name).1 [] := by
  rw [Handles.receive]
  cases h.readers.lookup name with
  | none => exact ⟨t, .refl h⟩
  | some place =>
      dsimp only
      split
      · rename_i completion made_under o at_place
        have tracks := t.signals place _ at_place
        refine ⟨t.set at_place t.distinct t.placed ?_ fun other _ => ⟨rfl, rfl⟩, ?_⟩
        · exact ⟨tracks.handles, tracks.settled, tracks.follows, ⟨o, tracks.posted⟩⟩
        · exact steps_set at_place rfl
      · exact ⟨t, .refl h⟩
      · exact ⟨t, .refl h⟩

/-- What an operation reports on each signal comes behind what was reported before. -/
theorem tracks_perform (t : h.Tracks (fun _ => 0) told) (op : HandleOp) :
    (h.perform op).1.Tracks (fun _ => 0) (fun p => told p ++ op.tells h p)
      ∧ Steps h (h.perform op).1 (h.perform op).2.2.fired := by
  have silent : (fun p => told p ++ []) = told := funext fun p => List.append_nil _
  cases op with
  | callback name =>
      simp only [HandleOp.tells, silent]
      have new : Signal.Tracks { name, mailbox := none } 1 [] := Signal.tracks_new name trivial
      exact t.make name new rfl h.readers
  | channel name =>
      simp only [HandleOp.tells, silent]
      have new : Signal.Tracks { name, mailbox := some .waiting } 1 [] := Signal.tracks_new name rfl
      exact t.make name new rfl _
  | clone name source =>
      simp only [HandleOp.tells, silent]
      rw [perform]
      cases found : h.held.lookup source with
      | none => exact ⟨t, .refl h⟩
      | some place => exact t.cloning found name
  | report name o => exact t.report name o
  | isCompleted name | describe name =>
      simp only [HandleOp.tells, silent]
      rw [perform]
      cases h.completion? name with
      | none | some => exact ⟨t, .refl h⟩
  | drop name =>
      simp only [HandleOp.tells, silent]
      obtain ⟨released, steps, -⟩ := t.release name
      exact ⟨released, steps⟩
  | receive name =>
      simp only [HandleOp.tells, silent]
      exact t.receive name
  | dropReader name =>
      simp only [HandleOp.tells, silent]
      exact ⟨⟨t.distinct, t.placed, t.signals, t.unmade⟩, steps_of_signals rfl⟩

theorem tracks_performAll (t : h.Tracks (fun _ => 0) told) (ops : List HandleOp) :
    (h.performAll ops).1.Tracks (fun _ => 0) (fun p => told p ++ h.reports p ops)
      ∧ Steps h (h.performAll ops).1 ((h.performAll ops).2.flatMap (·.2.fired)) := by
  induction ops generalizing h told with
  | nil =>
      have same : (fun p => told p ++ h.reports p []) = told :=
        funext fun p => List.append_nil _
      rw [same]
      exact ⟨t, .refl h⟩
  | cons op rest ih =>
      obtain ⟨now, fired⟩ := tracks_perform t op
      obtain ⟨later, more⟩ := ih now
      refine ⟨?_, fired.trans more⟩
      have joined : (fun p => told p ++ h.reports p (op :: rest))
          = fun p => told p ++ op.tells h p ++ (h.perform op).1.reports p rest := by
        funext p
        rw [reports, List.append_assoc]
      rw [joined]
      exact later

theorem tracks_empty : Tracks {} (fun _ => 0) fun _ => [] where
  distinct := List.nodup_nil
  placed p hp := absurd hp List.not_mem_nil
  signals place s found := absurd found (by simp)
  unmade _ _ := rfl

/-- Any operations on completions and their handles. The callback of each signal has run for the
first report on any of its handles; without one it has not run while a handle is held, and has been
cancelled when none is. What fired is each callback's run, and a channel has it in its mailbox. On
every handle that is held, the signal counts as completed from the first report on; until then a
report is taken, and from then on it is refused and changes nothing. -/
theorem callbacks_run_once (ops : List HandleOp) :
    let (h, answers) := ({} : Handles).performAll ops
    let told := fun place => ({} : Handles).reports place ops
    (answers.flatMap (·.2.fired)).Perm h.runs
      ∧ (∀ place (s : Signal), h.signals[place]? = some s →
        s.completion.calls = (match (told place).head? with
          | some o => [o]
          | none => if h.holders place = 0 then [.failed .cancelled] else [])
        ∧ Signal.Posted s.completion.calls s.mailbox)
      ∧ ∀ name place, h.held.lookup name = some place →
        h.perform (.isCompleted name) = (h, .flag !(told place).isEmpty, {})
          ∧ ∀ o, (told place = [] → (h.perform (.report name o)).2.1 = .done)
            ∧ (told place ≠ [] → h.perform (.report name o)
              = (h, .refused, { log := [Completion.refusal o] })) := by
  obtain ⟨tracks, fired⟩ := tracks_performAll tracks_empty ops
  simp only [List.nil_append] at tracks
  generalize ({} : Handles).performAll ops = result at tracks fired
  obtain ⟨h, answers⟩ := result
  dsimp only at tracks fired ⊢
  refine ⟨?_, ?_, ?_⟩
  · exact fired.symm
  · intro place s at_place
    have signal := tracks.signals place s at_place
    refine ⟨?_, signal.posted⟩
    rw [Nat.add_zero] at signal
    by_cases none_held : h.holders place = 0
    · rw [(signal.settled none_held).1, if_pos none_held]
      cases (Handles.reports {} place ops).head? with
      | none | some => rfl
    · rw [(signal.follows none_held).1, if_neg none_held]
      cases (Handles.reports {} place ops).head? with
      | none | some => rfl
  · intro name place found
    obtain ⟨s, at_place, some_held, signal⟩ := tracks.held found
    refine ⟨?_, tracks.answer found⟩
    rw [perform, completion?_of_held found at_place]
    dsimp only
    rw [Completion.isCompleted, (signal.follows some_held).2]

/-- Three handles of a channel: the first is given up unused, the last one reports, the second one
comes too late. -/
theorem callbacks_run_once_for_a_clone :
    let ops : List HandleOp := [.channel "a", .clone "b" "a", .drop "a", .clone "c" "b",
      .report "c" (.failed (.panicked "boom")), .report "b" .succeeded, .drop "c", .drop "b"];
    let h := (({} : Handles).performAll ops).1;
    h.holders 0 = 0 ∧ ∃ s, h.signals[0]? = some s
      ∧ s.completion.calls = [.failed (.panicked "boom")]
      ∧ s.mailbox = some (.full (.failed (.panicked "boom"))) := by
  intro ops h
  obtain ⟨-, signals, -⟩ := callbacks_run_once ops
  refine ⟨rfl, _, rfl, ?_, rfl⟩
  exact (signals 0 _ rfl).1

end Handles
end Gateway.Upgrade
