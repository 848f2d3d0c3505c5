import Gateway.Proofs.Hub.Hearing

/-!
Notices. A listener may fail or panic over an event, at any time; as long as it keeps to itself,
calling neither for sessions nor for listeners, a notice reaches every listener in order of
registration, and its faults are those of the listeners that failed.
-/
namespace Gateway

namespace Session

/-- A reaction that leaves sessions open or closed, and the list of listeners as it is. -/
def Reaction.keepsOut : Reaction → Bool
  | .closeSession _ | .openSession _ | .closeAll _ | .enlist _ | .dismiss _ => false
  | .succeed | .fail _ | .panic _ | .waver _ | .takeQueue _ | .requestClose _ | .send _ _ => true

def Listener.keepsOut (l : Listener) : Bool :=
  l.opened.keepsOut && l.closed.keepsOut && l.failed.keepsOut

theorem Listener.keepsOut_reaction {l : Listener} (out : l.keepsOut = true) (kind : EventKind) :
    (l.reaction kind).keepsOut = true := by
  rw [keepsOut, Bool.and_eq_true, Bool.and_eq_true] at out
  cases kind with
  | opened => exact out.1.1
  | closed => exact out.1.2
  | failed => exact out.2

/-- The faults of listeners from an index on, given what came of telling them. -/
def faultsFrom (kind : EventKind) (index : Nat) : List (Option FaultCause) → List Fault
  | [] => []
  | none :: rest => faultsFrom kind (index + 1) rest
  | some cause :: rest => ⟨index, kind, cause⟩ :: faultsFrom kind (index + 1) rest

theorem mem_faultsFrom {kind : EventKind} {index : Nat} {outcomes : List (Option FaultCause)}
    {f : Fault} : f ∈ faultsFrom kind index outcomes ↔
      f.event = kind ∧ index ≤ f.index ∧ outcomes[f.index - index]? = some (some f.cause) := by
  induction outcomes generalizing index with
  | nil => simp [faultsFrom]
  | cons outcome rest ih =>
      have later (further : index + 1 ≤ f.index) :
          (outcome :: rest)[f.index - index]? = rest[f.index - (index + 1)]? := by
        have ahead : f.index - index = f.index - (index + 1) + 1 := by omega
        rw [ahead, List.getElem?_cons_succ]
      cases outcome with
      | none =>
          rw [faultsFrom, ih]
          constructor
          · rintro ⟨kind_eq, further, found⟩
            exact ⟨kind_eq, by omega, (later further).trans found⟩
          · rintro ⟨kind_eq, from_here, found⟩
            rcases Nat.eq_or_lt_of_le from_here with same | further
            · rw [same, Nat.sub_self, List.getElem?_cons_zero] at found
              exact absurd found (by simp)
            · exact ⟨kind_eq, further, (later further).symm.trans found⟩
      | some cause =>
          rw [faultsFrom, List.mem_cons, ih]
          constructor
          · rintro (rfl | ⟨kind_eq, further, found⟩)
            · exact ⟨rfl, Nat.le_refl index, by simp⟩
            · exact ⟨kind_eq, by omega, (later further).trans found⟩
          · rintro ⟨kind_eq, from_here, found⟩
            rcases Nat.eq_or_lt_of_le from_here with same | further
            · rw [same, Nat.sub_self, List.getElem?_cons_zero] at found
              obtain ⟨i, event, cause'⟩ := f
              obtain rfl : cause = cause' := Option.some.inj (Option.some.inj found)
              exact .inl (by rw [same, ← kind_eq])
            · exact .inr ⟨kind_eq, further, (later further).symm.trans found⟩

theorem faultsFrom_sorted (kind : EventKind) (index : Nat) (outcomes : List (Option FaultCause)) :
    (faultsFrom kind index outcomes).Pairwise fun f g => f.index < g.index := by
  induction outcomes generalizing index with
  | nil => exact .nil
  | cons outcome rest ih =>
      cases outcome with
      | none => exact ih (index + 1)
      | some cause =>
          refine List.pairwise_cons.mpr ⟨?_, ih (index + 1)⟩
          intro g among
          obtain ⟨-, further, -⟩ := mem_faultsFrom.mp among
          exact further

end Session

/-- What a listener hears, with what its reaction fails with if it does. -/
structure Telling extends Hearing where
  outcome : Option Session.FaultCause
  deriving DecidableEq, Repr

namespace Call

def faults? : Call → Option (List Session.Fault)
  | .deliver _ _ _ [] faults => some faults
  | _ => none

def isDelivery : Call → Bool
  | .deliver _ _ _ _ _ => true
  | _ => false

end Call

/-- An event on its way to the listeners, with what comes of it at each. -/
structure Notice where
  key : SessionKey
  event : Session.Event
  phase : Session.Phase
  outcomes : List (Option Session.FaultCause)
  deriving DecidableEq, Repr

namespace Notice

def faults (n : Notice) : List Session.Fault := Session.faultsFrom n.event.kind 0 n.outcomes

def hearing (n : Notice) (l : Session.Listener) : Hearing := ⟨l, n.event, n.key, n.phase⟩

def tellings (n : Notice) (listeners : List Session.Listener) : List Telling :=
  List.zipWith (fun l outcome => ⟨n.hearing l, outcome⟩) listeners n.outcomes

theorem hearings_tellings (n : Notice) {listeners : List Session.Listener}
    (complete : n.outcomes.length = listeners.length) :
    (n.tellings listeners).map Telling.toHearing = listeners.map n.hearing := by
  refine List.ext_getElem (by simp [tellings, complete]) fun i _ _ => ?_
  simp [tellings]

def subject (n : Notice) : SessionKey × Session.Event := (n.key, n.event)

end Notice

namespace Hub

variable {h : Hub} {calls more : List Call} {news news' : List Notice}

/-- A hearing, with what comes of it on the hub that the listener finds. -/
def telling (h : Hub) (x : Hearing) : Telling :=
  ⟨x, h.cause? x.key (x.listener.reaction x.event.kind)⟩

def tellings (h : Hub) (calls : List Call) : List Telling :=
  (h.steps calls).flatMap fun step => (heardIn [step]).map step.1.telling

def returned (h : Hub) (calls : List Call) : List (List Session.Fault) :=
  trace (fun _ c => c.faults?) (h.steps calls)

theorem tellings_nil (h : Hub) : h.tellings [] = [] := by rw [tellings, steps_nil]; rfl

theorem returned_nil (h : Hub) : h.returned [] = [] := by rw [returned, steps_nil]; rfl

theorem tellings_cons (h : Hub) (c : Call) (rest : List Call) : h.tellings (c :: rest)
    = ((c.hearing? h).map h.telling).toList ++ (c.step h).1.tellings ((c.step h).2 ++ rest) := by
  rw [tellings, steps_cons, List.flatMap_cons, heardIn_cons, heardIn, List.flatMap_nil,
    List.append_nil]
  cases c.hearing? h with
  | none | some => rfl

theorem returned_cons (h : Hub) (c : Call) (rest : List Call) : h.returned (c :: rest)
    = c.faults?.toList ++ (c.step h).1.returned ((c.step h).2 ++ rest) := by
  rw [returned, steps_cons, trace, List.filterMap_cons]
  cases c.faults? with
  | none => rfl
  | some faults => rfl

theorem returned_append (h : Hub) (calls more : List Call) :
    h.returned (calls ++ more) = h.returned calls ++ (h.run calls).returned more := by
  rw [returned, steps_append, trace, List.filterMap_append]
  rfl

theorem tellings_append (h : Hub) (calls more : List Call) :
    h.tellings (calls ++ more) = h.tellings calls ++ (h.run calls).tellings more := by
  rw [tellings, steps_append, List.flatMap_append]
  rfl

theorem hearings_eq_tellings (h : Hub) (calls : List Call) :
    (h.run calls).hearings = h.hearings ++ (h.tellings calls).map Telling.toHearing := by
  have same (k : Hub) (xs : List Hearing) : (xs.map k.telling).map Telling.toHearing = xs := by
    rw [List.map_map]
    exact List.map_id xs
  have each (past : List (Hub × Call)) : (past.flatMap fun step =>
      (heardIn [step]).map step.1.telling).map Telling.toHearing = heardIn past := by
    induction past with
    | nil => rfl
    | cons step past ih =>
        rw [List.flatMap_cons, List.map_append, same, ih, ← heardIn_append, List.singleton_append]
  rw [hearings_run, tellings, each]

theorem outcome_of_telling {t : Telling} (among : t ∈ h.tellings calls) :
    ∃ k : Hub, t.outcome = k.cause? t.key (t.listener.reaction t.event.kind) := by
  obtain ⟨step, -, heard⟩ := List.mem_flatMap.mp among
  obtain ⟨x, -, rfl⟩ := List.mem_map.mp heard
  exact ⟨step.1, rfl⟩

/-- A task on its own gives these notices, in this order, and leaves the listeners as they are. -/
structure Announced (h : Hub) (calls : List Call) (news : List Notice) : Prop where
  listeners : (h.run calls).registry.listeners = h.registry.listeners
  complete : ∀ n ∈ news, n.outcomes.length = h.registry.listeners.length
  told : h.tellings calls = news.flatMap fun n => n.tellings h.registry.listeners
  returned : h.returned calls = news.map Notice.faults
  counted : (h.run calls).registry.faults
    = h.registry.faults + sumOver List.length (h.returned calls)

/-- What listeners hear is the notices, each told to all of them. -/
theorem Announced.hearings (announced : Announced h calls news) : (h.run calls).hearings
    = h.hearings ++ news.flatMap fun n => h.registry.listeners.map n.hearing := by
  rw [hearings_eq_tellings, announced.told, List.map_flatMap, List.flatMap_def, List.flatMap_def]
  congr 2
  exact List.map_congr_left fun n among => n.hearings_tellings (announced.complete n among)

/-- A listener that fails alike on every hub fails so over every notice. -/
theorem Announced.outcome (announced : Announced h calls news) {n : Notice} (among : n ∈ news)
    {i : Nat} {l : Session.Listener} {o : Option Session.FaultCause}
    (there : h.registry.listeners[i]? = some l)
    (alike : ∀ k : Hub, k.cause? n.key (l.reaction n.event.kind) = o) :
    n.outcomes[i]? = some o := by
  have within : i < n.outcomes.length := by
    rw [announced.complete n among]
    exact (List.getElem?_eq_some_iff.mp there).1
  have told : (⟨n.hearing l, n.outcomes[i]⟩ : Telling) ∈ h.tellings calls := by
    rw [announced.told]
    refine List.mem_flatMap.mpr ⟨n, among, List.mem_of_getElem? (i := i) ?_⟩
    rw [Notice.tellings, List.getElem?_zipWith, there, List.getElem?_eq_getElem within]
  obtain ⟨k, outcome⟩ := outcome_of_telling told
  rw [List.getElem?_eq_getElem within]
  exact congrArg some (outcome.trans (alike k))

theorem announced_nil (h : Hub) : Announced h [] [] where
  listeners := by rw [run_nil]
  complete n among := absurd among List.not_mem_nil
  told := tellings_nil h
  returned := returned_nil h
  counted := by rw [run_nil, returned_nil]; rfl

theorem Announced.append (first : Announced h calls news)
    (second : Announced (h.run calls) more news') :
    Announced h (calls ++ more) (news ++ news') where
  listeners := by rw [run_append, second.listeners, first.listeners]
  complete n among := by
    rcases List.mem_append.mp among with early | late
    · exact first.complete n early
    · rw [← first.listeners]
      exact second.complete n late
  told := by
    have late := second.told
    rw [first.listeners] at late
    rw [List.flatMap_append, ← late, ← first.told, tellings_append]
  returned := by
    rw [List.map_append, ← first.returned, ← second.returned, returned_append]
  counted := by
    rw [run_append, second.counted, first.counted, returned_append, sumOver_append, Nat.add_assoc]

theorem Announced.step {c : Call} (quiet : c.isDelivery = false)
    (rest : Announced (c.step h).1 ((c.step h).2 ++ calls) news) :
    Announced h (c :: calls) news := by
  have silent : c.hearing? h = none ∧ c.faults? = none := by
    cases c with
    | deliver => exact absurd quiet.symm Bool.false_ne_true
    | openSession | goLive | closeSession | finishClose | announce | report | notify | closeAll
    | closeEach => exact ⟨rfl, rfl⟩
  have same : (c.step h).1.registry.listeners = h.registry.listeners
      ∧ (c.step h).1.registry.faults = h.registry.faults := by
    cases c with
    | deliver => exact absurd quiet.symm Bool.false_ne_true
    | openSession key =>
        rw [Call.step]
        cases h.phase key with
        | created | opened | closed => exact ⟨rfl, rfl⟩
    | closeEach count keys =>
        cases keys with
        | nil =>
            rw [Call.step]
            split
            · exact ⟨rfl, rfl⟩
            · exact ⟨rfl, rfl⟩
        | cons => exact ⟨rfl, rfl⟩
    | goLive | closeSession | finishClose | announce | report | notify | closeAll =>
        exact ⟨rfl, rfl⟩
  obtain ⟨listeners, counted⟩ := same
  constructor
  · rw [run_cons, rest.listeners, listeners]
  · intro n among
    rw [← listeners]
    exact rest.complete n among
  · rw [tellings_cons, silent.1, rest.told, listeners]
    rfl
  · rw [returned_cons, silent.2, rest.returned]
    rfl
  · rw [run_cons, rest.counted, counted, returned_cons, silent.2]
    rfl

/-- What a task on its own announces, and the live sessions and phases it ends with. -/
structure Settles (h : Hub) (calls : List Call) (news : List Notice) (live : List SessionKey)
    (phase : SessionKey → Session.Phase) : Prop where
  announced : Announced h calls news
  live : (h.run calls).registry.live = live
  heardAs : ∀ n ∈ news, n.phase = phase n.key
  phase : ∀ key, (h.run calls).phase key = phase key

variable {live live' : List SessionKey} {phase phase' : SessionKey → Session.Phase}

theorem Settles.step {c : Call} (quiet : c.isDelivery = false)
    (rest : Settles (c.step h).1 ((c.step h).2 ++ calls) news live phase) :
    Settles h (c :: calls) news live phase where
  announced := .step quiet rest.announced
  live := by rw [run_cons, rest.live]
  phase key := by rw [run_cons, rest.phase]
  heardAs := rest.heardAs

theorem Settles.congr (settles : Settles h calls news live phase) (same : live = live')
    (phases : ∀ key, phase key = phase' key) : Settles h calls news live' phase' where
  announced := settles.announced
  live := settles.live.trans same
  phase key := (settles.phase key).trans (phases key)
  heardAs n among := (settles.heardAs n among).trans (phases n.key)

theorem Settles.append (first : Settles h calls news live phase)
    (second : Settles (h.run calls) more news' live' phase')
    (still : ∀ n ∈ news, phase' n.key = phase n.key) :
    Settles h (calls ++ more) (news ++ news') live' phase' where
  announced := first.announced.append second.announced
  live := by rw [run_append, second.live]
  phase key := by rw [run_append, second.phase]
  heardAs n among := by
    rcases List.mem_append.mp among with early | late
    · rw [still n early, first.heardAs n early]
    · exact second.heardAs n late

theorem settles_nil (h : Hub) : Settles h [] [] h.registry.live h.phase where
  announced := announced_nil h
  live := by rw [run_nil]
  phase key := by rw [run_nil]
  heardAs n among := absurd among List.not_mem_nil

/-! ### One notice -/

theorem react_alone (h : Hub) (key : SessionKey) {r : Session.Reaction} (out : r.keepsOut = true) :
    r.calls key = [] ∧ (h.react key r).1.registry = h.registry := by
  cases r with
  | succeed | fail | panic | waver | takeQueue | requestClose => exact ⟨rfl, rfl⟩
  | send other s =>
      obtain ⟨-, registry⟩ := sameStanding_send h (other.getD key) (.text s)
      rw [react]
      generalize h.send (other.getD key) (.text s) = sent at registry ⊢
      obtain ⟨k, outcome⟩ := sent
      cases outcome with
      | ok | error => exact ⟨rfl, registry⟩
  | closeSession | openSession | closeAll | enlist | dismiss =>
      exact absurd out Bool.false_ne_true

/-- What is left when a listener that keeps out has been told. -/
structure ToldAlone (h k : Hub) (faults : Nat) : Prop where
  phase : ∀ key, k.phase key = h.phase key
  registry : k.registry = { h.registry with faults := h.registry.faults + faults }

theorem tell_alone (h : Hub) {l : Session.Listener} (out : l.keepsOut = true) (key : SessionKey)
    (event : Session.Event) (index : Nat) : ToldAlone h (h.tell l key event index).1
      (Session.faultsFrom event.kind index [h.cause? key (l.reaction event.kind)]).length := by
  have phase := (tell_frame h l key event index).1.phase
  have fault := tell_fault h l key event index
  obtain ⟨-, heard⟩ := hear_frame h l key event
  obtain ⟨-, reacted⟩ := react_alone (h.hear l key event) key (l.keepsOut_reaction out event.kind)
  rw [tell] at phase fault ⊢
  generalize (h.hear l key event).react key (l.reaction event.kind) = reaction
    at reacted phase fault ⊢
  obtain ⟨k, cause⟩ := reaction
  have same : k.registry = h.registry := reacted.trans heard
  cases cause with
  | none =>
      rw [Option.map_eq_none_iff.mp fault.symm]
      exact ⟨phase, same⟩
  | some cause =>
      obtain ⟨cause', now, -⟩ := Option.map_eq_some_iff.mp fault.symm
      rw [now]
      refine ⟨phase, ?_⟩
      change ({ k.registry with faults := k.registry.faults + 1 } : Registry) = _
      rw [same]
      rfl

theorem ToldAlone.trans {k l : Hub} {first second : Nat} (now : ToldAlone h k first)
    (later : ToldAlone k l second) : ToldAlone h l (first + second) where
  phase key := (later.phase key).trans (now.phase key)
  registry := by rw [later.registry, now.registry, Nat.add_assoc]

theorem faultsFrom_cons_length (kind : Session.EventKind) (index : Nat)
    (outcome : Option Session.FaultCause) (rest : List (Option Session.FaultCause)) :
    (Session.faultsFrom kind index (outcome :: rest)).length
      = (Session.faultsFrom kind index [outcome]).length
        + (Session.faultsFrom kind (index + 1) rest).length := by
  cases outcome with
  | none => exact (Nat.zero_add _).symm
  | some cause => exact Nat.add_comm _ 1

theorem deliver_alone (h : Hub) (key : SessionKey) (event : Session.Event) (index : Nat)
    {rest : List Session.Listener} (faults : List Session.Fault)
    (out : ∀ l ∈ rest, l.keepsOut = true) : ∃ outcomes, outcomes.length = rest.length
      ∧ h.tellings [.deliver key event index rest faults]
        = Notice.tellings ⟨key, event, h.phase key, outcomes⟩ rest
      ∧ h.returned [.deliver key event index rest faults]
        = [faults ++ Session.faultsFrom event.kind index outcomes]
      ∧ ToldAlone h (h.run [.deliver key event index rest faults])
        (Session.faultsFrom event.kind index outcomes).length := by
  -- On the listeners that are left. The one at hand calls nothing, so what is left of the step is
  -- the delivery to the others, one index on.
  induction rest generalizing h index faults with
  | nil =>
      have step : Call.step h (.deliver key event index [] faults)
          = ({ h with lastFaults := faults }, []) := rfl
      refine ⟨[], rfl, ?_, ?_, ?_⟩
      · rw [tellings_cons, step, List.append_nil, tellings_nil]
        rfl
      · rw [returned_cons, step, List.append_nil, returned_nil, List.append_nil, Session.faultsFrom,
          List.append_nil]
        rfl
      · rw [run_cons, step, List.append_nil, run_nil]
        exact ⟨fun _ => rfl, rfl⟩
  | cons l rest ih =>
      have own := out l List.mem_cons_self
      have first := tell_alone h own key event index
      have fault := tell_fault h l key event index
      have step : Call.step h (.deliver key event index (l :: rest) faults)
          = ((h.tell l key event index).1, [.deliver key event (index + 1) rest
            (faults ++ (h.tell l key event index).2.toList)]) := by
        rw [Call.step, (react_alone h key (l.keepsOut_reaction own event.kind)).1]
        rfl
      rw [fault] at step
      generalize (h.tell l key event index).1 = k at step first
      obtain ⟨outcomes, complete, later, returned, second⟩ := ih k (index + 1)
        (faults ++ ((h.cause? key (l.reaction event.kind)).map fun cause =>
          ⟨index, event.kind, cause⟩).toList)
        fun l' among => out l' (List.mem_cons_of_mem l among)
      refine ⟨h.cause? key (l.reaction event.kind) :: outcomes, congrArg Nat.succ complete, ?_, ?_,
        ?_⟩
      · rw [tellings_cons, step, List.append_nil, later, first.phase]
        rfl
      · rw [returned_cons, step, List.append_nil, returned]
        cases h.cause? key (l.reaction event.kind) with
        | none => simp [Call.faults?, Session.faultsFrom]
        | some cause => simp [Call.faults?, Session.faultsFrom]
      · rw [run_cons, step, List.append_nil, faultsFrom_cons_length]
        exact first.trans second

theorem notify_settles (key : SessionKey) (event : Session.Event)
    (out : ∀ l ∈ h.registry.listeners, l.keepsOut = true) : ∃ n : Notice,
      n.subject = (key, event) ∧ Settles h [.notify key event] [n] h.registry.live h.phase := by
  obtain ⟨outcomes, complete, told, returned, alone⟩ := deliver_alone h key event 0 [] out
  have begun : h.run [.notify key event]
      = h.run [.deliver key event 0 h.registry.listeners []] := run_cons h _ []
  have heard : h.tellings [.notify key event]
      = h.tellings [.deliver key event 0 h.registry.listeners []] := tellings_cons h _ []
  have back : h.returned [.notify key event]
      = h.returned [.deliver key event 0 h.registry.listeners []] := returned_cons h _ []
  refine ⟨⟨key, event, h.phase key, outcomes⟩, rfl, ⟨⟨?_, ?_, ?_, ?_, ?_⟩, ?_, ?_, ?_⟩⟩
  · rw [begun, alone.registry]
  · intro n among
    rw [List.mem_singleton.mp among]
    exact complete
  · rw [heard, told, List.flatMap_singleton]
  · rw [back, returned]
    rfl
  · rw [begun, alone.registry, back, returned]
    rfl
  · rw [begun, alone.registry]
  · exact List.forall_mem_singleton.mpr rfl
  · intro other
    rw [begun, alone.phase]

theorem announce_settles (key : SessionKey) (event : Session.Event)
    (out : ∀ l ∈ h.registry.listeners, l.keepsOut = true) : ∃ n : Notice,
      n.subject = (key, event) ∧ Settles h [.announce key event] [n] h.registry.live h.phase := by
  obtain ⟨n, subject, settles⟩ :=
    notify_settles (h := (Call.step h (.announce key event)).1) key event out
  exact ⟨n, subject, .step rfl settles⟩

theorem report_settles (key : SessionKey) (e : Session.Error)
    (out : ∀ l ∈ h.registry.listeners, l.keepsOut = true) : ∃ n : Notice,
      n.subject = (key, .failed e) ∧ Settles h [.report key e] [n] h.registry.live h.phase := by
  obtain ⟨n, subject, settles⟩ :=
    notify_settles (h := (Call.step h (.report key e)).1) key (.failed e) out
  exact ⟨n, subject, .step rfl settles⟩

end Hub
end Gateway
