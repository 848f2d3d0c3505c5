import Gateway.Server

/-!
Whom the shutdown signal reaches. A subscriber is told of every signal sent since it came, and of
none sent before. A server that subscribes after the signal has been sent is not told to stop.
-/
namespace Gateway.Shutdown

def after (s : Shutdown) (ops : List Op) : Shutdown := ops.foldl (fun s op => (s.perform op).1) s

def sends (s : Shutdown) : Op → Nat
  | .trigger handle => if s.holds handle then 1 else 0
  | _ => 0

def sentBy (s : Shutdown) : List Op → Nat
  | [] => 0
  | op :: rest => s.sends op + (s.perform op).1.sentBy rest

/-- What a subscriber receives next, when so many signals have been sent since it came. -/
def due (s : Shutdown) : Nat → Delivery
  | 0 => if s.handles.contains true then .empty else .closed
  | 1 => .signal
  | missed + 2 => .lagged (missed + 1)

theorem due_eq_empty_iff (s : Shutdown) (n : Nat) :
    s.due n = .empty ↔ n = 0 ∧ s.handles.contains true = true := by
  match n with
  | 0 =>
      rw [due]
      cases s.handles.contains true with
      | true => simp
      | false => simp
  | 1 | missed + 2 => simp [due]

/-- A subscriber has received nothing since it came, and so many signals have been sent. -/
def Awaits (s : Shutdown) (r n : Nat) : Prop :=
  ∃ seen, s.subscribers[r]? = some (some seen) ∧ s.sent = seen + n

def Gone (s : Shutdown) (r : Nat) : Prop := s.subscribers[r]? = some none

variable {s : Shutdown} {r n : Nat} {op : Op}

theorem Awaits.receive (h : s.Awaits r n) : (s.receive r).2 = some (s.due n) := by
  obtain ⟨seen, found, sent⟩ := h
  have at_place : s.subscribers.getD r none = some seen := by
    rw [List.getD_eq_getElem?_getD, found]
    rfl
  rw [Shutdown.receive, at_place]
  dsimp only
  match n with
  | 0 =>
      rw [if_pos (by omega)]
      rfl
  | 1 =>
      rw [if_neg (by omega), if_pos (show s.sent - seen ≤ capacity by rw [capacity]; omega)]
      rfl
  | missed + 2 =>
      have lost : s.sent - capacity - seen = missed + 1 := by rw [capacity]; omega
      rw [if_neg (by omega), if_neg (show ¬ s.sent - seen ≤ capacity by rw [capacity]; omega), lost]
      rfl

theorem Awaits.reply (h : s.Awaits r n) :
    (s.perform (.receive r)).2 = .delivered (s.due n) := by
  have received := h.receive
  rw [perform]
  generalize s.receive r = result at received ⊢
  obtain ⟨s', delivery⟩ := result
  obtain rfl : delivery = some _ := received
  rfl

theorem Awaits.listening (h : s.Awaits r n) : s.listening ≠ 0 := by
  obtain ⟨seen, found, -⟩ := h
  have among : some seen ∈ s.subscribers.filter Option.isSome :=
    List.mem_filter.mpr ⟨List.mem_of_getElem? found, rfl⟩
  exact Nat.ne_of_gt (List.length_pos_of_mem among)

theorem perform_withHandle (s : Shutdown) (handle : Nat) (r : Shutdown × Nat) :
    (s.withHandle handle r).1 = if s.holds handle then r.1 else s := by
  rw [withHandle]
  cases s.holds handle with
  | true => rfl
  | false => rfl

theorem perform_receive (s : Shutdown) (k : Nat) :
    (s.perform (.receive k)).1 = (s.receive k).1 := by
  rw [perform]
  generalize s.receive k = received
  obtain ⟨s', delivery⟩ := received
  cases delivery with
  | none => rfl
  | some d => rfl

theorem receive_cases (s : Shutdown) (k : Nat) : (s.receive k).1 = s ∨ ∃ old seen,
    s.subscribers[k]? = some (some old)
      ∧ (s.receive k).1 = { s with subscribers := s.subscribers.set k (some seen) } := by
  rw [receive, List.getD_eq_getElem?_getD]
  cases found : s.subscribers[k]? with
  | none => exact .inl rfl
  | some place =>
      cases place with
      | none => exact .inl rfl
      | some old =>
          dsimp only [Option.getD_some]
          by_cases empty : old = s.sent
          · rw [if_pos empty]
            exact .inl rfl
          · rw [if_neg empty]
            by_cases near : s.sent - old ≤ capacity
            · rw [if_pos near]
              exact .inr ⟨old, _, rfl, rfl⟩
            · rw [if_neg near]
              exact .inr ⟨old, _, rfl, rfl⟩

theorem sent_perform (some_listen : s.listening ≠ 0) (op : Op) :
    (s.perform op).1.sent = s.sent + s.sends op := by
  cases op with
  | clone handle | subscribe handle | count handle =>
      rw [perform, perform_withHandle]
      cases s.holds handle with
      | true => rfl
      | false => rfl
  | drop handle => rfl
  | unsubscribe k => rfl
  | trigger handle =>
      rw [perform, perform_withHandle, sends, trigger, if_neg some_listen]
      cases s.holds handle with
      | true => rfl
      | false => rfl
  | receive k =>
      rw [perform_receive]
      rcases receive_cases s k with same | ⟨old, seen, found, same⟩
      · rw [same]
        rfl
      · rw [same]
        rfl

/-- What an operation does to the subscribers. -/
inductive Seated (s : Shutdown) : Op → List (Option Nat) → Prop
  | same {op : Op} : Seated s op s.subscribers
  | joined {handle : Nat} : s.holds handle = true →
      Seated s (.subscribe handle) (s.subscribers ++ [some s.sent])
  | left {k : Nat} : Seated s (.unsubscribe k) (s.subscribers.set k none)
  | moved {k old seen : Nat} : s.subscribers[k]? = some (some old) →
      Seated s (.receive k) (s.subscribers.set k (some seen))

theorem seated (s : Shutdown) (op : Op) : Seated s op (s.perform op).1.subscribers := by
  cases op with
  | clone handle | count handle =>
      rw [perform, perform_withHandle]
      cases s.holds handle with
      | true => exact .same
      | false => exact .same
  | subscribe handle =>
      rw [perform, perform_withHandle]
      cases held : s.holds handle with
      | true => exact .joined held
      | false => exact .same
  | drop handle => exact .same
  | unsubscribe k => exact .left
  | trigger handle =>
      rw [perform, perform_withHandle, trigger]
      by_cases nobody : s.listening = 0
      · rw [if_pos nobody, ite_self]
        exact .same
      · rw [if_neg nobody]
        cases s.holds handle with
        | true => exact .same
        | false => exact .same
  | receive k =>
      rw [perform_receive]
      rcases receive_cases s k with same | ⟨old, seen, found, same⟩
      · rw [same]
        exact .same
      · rw [same]
        exact .moved found

theorem Gone.perform (h : s.Gone r) (op : Op) : (s.perform op).1.Gone r := by
  have there : r < s.subscribers.length := (List.getElem?_eq_some_iff.mp h).1
  have seats := seated s op
  rw [Gone] at h ⊢
  generalize (s.perform op).1.subscribers = subscribers at seats
  cases seats with
  | same => exact h
  | joined => rw [List.getElem?_append_left there, h]
  | @left k =>
      by_cases own : k = r
      · rw [own, List.getElem?_set_self there]
      · rw [List.getElem?_set_ne own, h]
  | @moved k old seen found =>
      have other : k ≠ r := by
        rintro rfl
        exact absurd (found.symm.trans h) (by simp)
      rw [List.getElem?_set_ne other, h]

/-- One who awaits the signal is told of each that is sent, unless it leaves. -/
theorem Awaits.perform (h : s.Awaits r n) (apart : op ≠ .receive r) :
    (s.perform op).1.Awaits r (n + s.sends op) ∨ (s.perform op).1.Gone r := by
  have some_listen := h.listening
  obtain ⟨seen, found, sent⟩ := h
  have there : r < s.subscribers.length := (List.getElem?_eq_some_iff.mp found).1
  have kept (same : (s.perform op).1.subscribers[r]? = s.subscribers[r]?) :
      (s.perform op).1.Awaits r (n + s.sends op) := by
    refine ⟨seen, same.trans found, ?_⟩
    rw [sent_perform some_listen, sent, Nat.add_assoc]
  have seats := seated s op
  rw [Gone]
  generalize (s.perform op).1.subscribers = subscribers at seats kept
  cases seats with
  | same => exact .inl (kept rfl)
  | joined => exact .inl (kept (List.getElem?_append_left there))
  | @left k =>
      by_cases own : k = r
      · rw [own]
        exact .inr (List.getElem?_set_self there)
      · exact .inl (kept (List.getElem?_set_ne own))
  | @moved k =>
      have other : k ≠ r := fun own => apart (congrArg Op.receive own)
      exact .inl (kept (List.getElem?_set_ne other))

theorem Gone.after (h : s.Gone r) (ops : List Op) : (s.after ops).Gone r := by
  induction ops generalizing s with
  | nil => exact h
  | cons op rest ih => exact ih (h.perform op)

theorem Awaits.after {ops : List Op} (h : s.Awaits r n) (apart : .receive r ∉ ops) :
    (s.after ops).Awaits r (n + s.sentBy ops) ∨ (s.after ops).Gone r := by
  induction ops generalizing s n with
  | nil => exact .inl h
  | cons op rest ih =>
      rw [sentBy, ← Nat.add_assoc]
      rcases h.perform (List.ne_of_not_mem_cons apart).symm with kept | gone
      · exact ih kept (List.not_mem_of_not_mem_cons apart)
      · exact .inr (gone.after rest)

theorem subscribed {ops : List Op} (absent : s.subscribers.length ≤ r)
    (there : r < (s.after ops).subscribers.length) : ∃ before handle behind,
      ops = before ++ .subscribe handle :: behind ∧ (s.after before).holds handle = true
        ∧ (s.after before).subscribers.length = r := by
  induction ops generalizing s with
  | nil => exact absurd there (Nat.not_lt.mpr absent)
  | cons op rest ih =>
      have later (still : (s.perform op).1.subscribers.length ≤ r) : ∃ before handle behind,
          op :: rest = before ++ .subscribe handle :: behind
            ∧ (s.after before).holds handle = true
            ∧ (s.after before).subscribers.length = r := by
        obtain ⟨before, handle, behind, rfl, held, number⟩ := ih still there
        exact ⟨op :: before, handle, behind, rfl, held, number⟩
      have seats := seated s op
      generalize (s.perform op).1.subscribers = subscribers at seats later
      cases seats with
      | same => exact later absent
      | @joined handle held =>
          rcases Nat.lt_or_eq_of_le absent with early | number
          · refine later ?_
            rw [List.length_append]
            exact early
          · exact ⟨[], handle, rest, rfl, held, number⟩
      | left => exact later (by rwa [List.length_set])
      | moved => exact later (by rwa [List.length_set])

theorem after_append (s : Shutdown) (ops more : List Op) :
    s.after (ops ++ more) = (s.after ops).after more := List.foldl_append

theorem Awaits.of_subscribe {handle : Nat} (held : s.holds handle = true) :
    (s.perform (.subscribe handle)).1.Awaits s.subscribers.length 0 := by
  rw [Shutdown.perform, perform_withHandle, if_pos held]
  refine ⟨s.sent, ?_, rfl⟩
  exact List.getElem?_concat_length

theorem after_subscribes {handle : Nat} (held : s.holds handle = true) (k : Nat) :
    s.after (.replicate k (.subscribe handle))
      = { s with subscribers := s.subscribers ++ .replicate k (some s.sent) } := by
  induction k generalizing s with
  | zero =>
      rw [List.replicate_zero, List.replicate_zero, List.append_nil]
      rfl
  | succ k ih =>
      have first : s.after (.replicate (k + 1) (.subscribe handle))
          = ({ s with subscribers := s.subscribers ++ [some s.sent] } : Shutdown).after
            (.replicate k (.subscribe handle)) := by
        rw [List.replicate_succ, after, List.foldl_cons, perform, perform_withHandle, if_pos held]
        rfl
      have more := ih (s := { s with subscribers := s.subscribers ++ [some s.sent] }) held
      rw [first, more, List.append_assoc]
      rfl

theorem after_last_signal {handle : Nat} (held : s.holds handle = true)
    (some_listen : s.listening ≠ 0) : s.after [.trigger handle, .drop handle]
      = { s with sent := s.sent + 1, handles := s.handles.set handle false } := by
  rw [after, List.foldl_cons, perform, perform_withHandle, if_pos held, trigger, if_neg some_listen]
  rfl

/-- How a program starts: one more handle is made, for the task that is told of a signal of the
system, and the program subscribes for its own deadline, for its admin API if it has one, and for
its server. The task sends the signal behind so many of these, and ends. -/
def starting (early late : Nat) : List Op :=
  .clone 0 :: (.replicate early (.subscribe 0) ++ [.trigger 1, .drop 1]
    ++ .replicate late (.subscribe 0))

theorem after_starting (early late : Nat) : ({} : Shutdown).after (starting early late)
    = { sent := if early = 0 then 0 else 1, handles := [true, false],
        subscribers := .replicate early (some 0)
          ++ .replicate late (some (if early = 0 then 0 else 1)) } := by
  have told : (({ handles := [true, true] } : Shutdown).after
      (.replicate early (.subscribe 0))).after [.trigger 1, .drop 1]
        = { sent := if early = 0 then 0 else 1, handles := [true, false],
            subscribers := .replicate early (some 0) } := by
    rw [after_subscribes rfl]
    cases early with
    | zero => rfl
    | succ early =>
        have waits : Awaits { handles := [true, true]
                              subscribers := .replicate (early + 1) (some 0) } 0 0 := ⟨0, rfl, rfl⟩
        exact after_last_signal rfl waits.listening
  rw [starting, List.append_assoc, after, List.foldl_cons]
  have whole := after_append ({ handles := [true, true] } : Shutdown)
    (.replicate early (.subscribe 0)) ([.trigger 1, .drop 1] ++ .replicate late (.subscribe 0))
  refine whole.trans ?_
  rw [after_append, told, after_subscribes rfl]

theorem told_since {ops : List Op}
    (there : ((({} : Shutdown).after ops).subscribers.getD r none).isSome = true)
    (quiet : .receive r ∉ ops) : ∃ before handle behind, ops = before ++ .subscribe handle :: behind
      ∧ (({} : Shutdown).after before).subscribers.length = r
      ∧ ((({} : Shutdown).after ops).perform (.receive r)).2
        = .delivered ((({} : Shutdown).after ops).due
          ((({} : Shutdown).after (before ++ [.subscribe handle])).sentBy behind)) := by
  have place : ∃ seen, (({} : Shutdown).after ops).subscribers[r]? = some (some seen) := by
    rw [List.getD_eq_getElem?_getD] at there
    cases found : (({} : Shutdown).after ops).subscribers[r]? with
    | none =>
        rw [found] at there
        exact absurd there (by simp)
    | some seat =>
        cases seat with
        | none =>
            rw [found] at there
            exact absurd there (by simp)
        | some seen => exact ⟨seen, rfl⟩
  obtain ⟨seen, found⟩ := place
  obtain ⟨before, handle, behind, rfl, held, rfl⟩ :=
    subscribed (Nat.zero_le r) (List.getElem?_eq_some_iff.mp found).1
  have split : ({} : Shutdown).after (before ++ .subscribe handle :: behind)
      = (({} : Shutdown).after (before ++ [.subscribe handle])).after behind := by
    rw [← after_append, List.append_assoc, List.singleton_append]
  have came : (({} : Shutdown).after (before ++ [.subscribe handle])).Awaits
      (({} : Shutdown).after before).subscribers.length 0 := by
    rw [after_append]
    exact .of_subscribe held
  have apart : .receive (({} : Shutdown).after before).subscribers.length ∉ behind := fun among =>
    quiet (List.mem_append_right _ (List.mem_cons_of_mem _ among))
  refine ⟨before, handle, behind, rfl, rfl, ?_⟩
  rcases came.after apart with waits | gone
  · rw [Nat.zero_add, ← split] at waits
    exact waits.reply
  · rw [← split] at gone
    exact absurd (found.symm.trans gone) (by simp)

theorem told_at_start {early late : Nat} (there : r < early + late) :
    ((({} : Shutdown).after (starting early late)).perform (.receive r)).2
      = .delivered (if r < early then .signal else .empty) := by
  rw [after_starting]
  by_cases before : r < early
  · have some_early : early ≠ 0 := by omega
    rw [if_pos before, if_neg some_early]
    have waits : Awaits { sent := 1, handles := [true, false]
                          subscribers := .replicate early (some 0) ++ .replicate late (some 1) }
        r 1 := by
      refine ⟨0, ?_, rfl⟩
      rw [List.getElem?_append_left (by rwa [List.length_replicate]),
        List.getElem?_replicate_of_lt before]
    exact waits.reply
  · rw [if_neg before]
    generalize (if early = 0 then 0 else 1) = sent
    have waits : Awaits { sent, handles := [true, false]
                          subscribers := .replicate early (some 0) ++ .replicate late (some sent) }
        r 0 := by
      refine ⟨sent, ?_, rfl⟩
      rw [List.getElem?_append_right (by rw [List.length_replicate]; omega), List.length_replicate,
        List.getElem?_replicate_of_lt (by omega)]
    exact waits.reply

theorem start_subscribes (held : s.holds 0 = true) (hub : Hub) (admin : Bool) :
    (Server.start hub s admin).2
      = s.after (.replicate (if admin then 2 else 1) (.subscribe 0)) := by
  have one {s : Shutdown} (held : s.holds 0 = true) :
      (s.perform (.subscribe 0)).1 = s.subscribe.1 := by
    rw [perform, perform_withHandle, if_pos held]
  cases admin with
  | true =>
      have twice : s.after (.replicate 2 (.subscribe 0))
          = ((s.perform (.subscribe 0)).1.perform (.subscribe 0)).1 := rfl
      rw [if_pos rfl, twice, one held, one (s := s.subscribe.1) held]
      rfl
  | false => exact (one held).symm

theorem start_after_starting (hub : Hub) (admin : Bool) (early late : Nat) :
    (Server.start hub (({} : Shutdown).after (starting early late)) admin).2
      = ({} : Shutdown).after (starting early (late + if admin then 2 else 1)) := by
  have held : (({} : Shutdown).after (starting early late)).holds 0 = true := by
    rw [after_starting]
    rfl
  rw [start_subscribes held, ← after_append, starting, starting, List.cons_append,
    List.append_assoc, List.replicate_append_replicate]

/-- A subscriber is told of each signal sent since it came, and of no other. It is answered at once
if there was one, or if no handle is left, and otherwise waits. When a program starts, whoever has
subscribed before the signal is told of it, and whoever subscribes after it waits, the server itself
among them. -/
theorem told_of_what_came_since (ops : List Op) (hub : Hub) (admin : Bool) (early late : Nat) :
    (∀ r, ((({} : Shutdown).after ops).subscribers.getD r none).isSome = true →
      .receive r ∉ ops → ∃ before handle behind, ops = before ++ .subscribe handle :: behind
        ∧ (({} : Shutdown).after before).subscribers.length = r
        ∧ ((({} : Shutdown).after ops).perform (.receive r)).2
          = .delivered ((({} : Shutdown).after ops).due
            ((({} : Shutdown).after (before ++ [.subscribe handle])).sentBy behind))
        ∧ (((({} : Shutdown).after ops).perform (.receive r)).2 = .delivered .empty
          ↔ (({} : Shutdown).after (before ++ [.subscribe handle])).sentBy behind = 0
            ∧ (({} : Shutdown).after ops).handles.contains true = true))
      ∧ (∀ k < early + late,
        ((({} : Shutdown).after (starting early late)).perform (.receive k)).2
          = .delivered (if k < early then .signal else .empty))
      ∧ (Server.start hub (({} : Shutdown).after (starting early late)) admin).2
        = ({} : Shutdown).after (starting early (late + if admin then 2 else 1)) := by
  refine ⟨?_, fun _ => told_at_start, start_after_starting hub admin early late⟩
  intro r there quiet
  obtain ⟨before, handle, behind, split, place, reply⟩ := told_since there quiet
  refine ⟨before, handle, behind, split, place, reply, ?_⟩
  rw [reply, Reply.delivered.injEq]
  exact due_eq_empty_iff _ _

/-- Of two signals, the one who came before both is told that it missed one, and the one who came
between them has the second. A server that starts behind the signal is not told of it. -/
theorem told_of_what_came_since_between :
    let ops : List Op := [.clone 0, .subscribe 0, .trigger 1, .subscribe 1, .trigger 0]
    let s := ({} : Shutdown).after ops
    (∀ r < 2, ∃ before handle behind, ops = before ++ .subscribe handle :: behind
      ∧ (({} : Shutdown).after before).subscribers.length = r
      ∧ (s.perform (.receive r)).2 = .delivered (s.due
        ((({} : Shutdown).after (before ++ [.subscribe handle])).sentBy behind)))
    ∧ (s.perform (.receive 0)).2 = .delivered (.lagged 1)
    ∧ (s.perform (.receive 1)).2 = .delivered .signal
    ∧ ((({} : Shutdown).after (starting 1 2)).perform (.receive 0)).2 = .delivered .signal
    ∧ ((({} : Shutdown).after (starting 1 2)).perform (.receive 2)).2 = .delivered .empty := by
  intro ops s
  obtain ⟨told, start, -⟩ := told_of_what_came_since ops {} true 1 2
  refine ⟨?_, by decide, by decide, start 0 (by decide), start 2 (by decide)⟩
  intro r there
  have stays : (s.subscribers.getD r none).isSome = true := by
    revert r
    decide
  have quiet : .receive r ∉ ops := by simp [ops]
  obtain ⟨before, handle, behind, split, place, reply, -⟩ := told r stays quiet
  exact ⟨before, handle, behind, split, place, reply⟩

/-- A signal that is sent before anyone has subscribed is lost. -/
theorem not_every_signal_arrives : ¬ ∀ (ops : List Op) (r : Nat),
    (∃ handle, .trigger handle ∈ ops) →
    ((({} : Shutdown).after ops).subscribers.getD r none).isSome = true → .receive r ∉ ops →
    ((({} : Shutdown).after ops).perform (.receive r)).2 ≠ .delivered .empty := by
  intro arrives
  exact arrives [.trigger 0, .subscribe 0] 0 ⟨0, List.mem_cons_self⟩ (by decide) (by decide)
    (by decide)

end Gateway.Shutdown
