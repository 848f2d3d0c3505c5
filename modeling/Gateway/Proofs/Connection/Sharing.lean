import Gateway.Proofs.Connection.Rival

/-!
Several pumps for one session, their steps in any order. The first that starts takes the queue and
serves; the others are turned away. They write nothing and call no endpoint, but each of them
unregisters the session on its way out, so that the session stays open only until one of them is on
its way: `one_serves_until_one_leaves`.
-/
namespace Gateway.Connection

structure Rivals where
  hub : Hub
  pumps : List Pump

namespace Rivals

inductive Act where
  | step (choice : Option Pump.Choice)
  | wire (up : Bool)

def Act.result (h : Hub) (p : Pump) : Act → Hub × Pump
  | .step choice => p.step h choice
  | .wire up => (h, { p with writable := up })

structure Turn where
  pump : Nat
  act : Act

def turn (s : Rivals) (t : Turn) : Rivals :=
  match s.pumps[t.pump]? with
  | none => s
  | some p => ⟨(t.act.result s.hub p).1, s.pumps.set t.pump (t.act.result s.hub p).2⟩

def run (s : Rivals) : List Turn → Rivals
  | [] => s
  | t :: rest => (s.turn t).run rest

/-- Somebody has been given the queue of a session. -/
def handedOver (key : SessionKey) (h : Hub) : Bool :=
  (h.session? key).any fun t => t.holder != .session

/-- The pumps that were given the queue of a session, each in its own turn, oldest first. -/
def takers (key : SessionKey) (s : Rivals) : List Turn → List Nat
  | [] => []
  | t :: rest =>
    (if !handedOver key s.hub && handedOver key (s.turn t).hub then [t.pump] else [])
      ++ (s.turn t).takers key rest

def Turn.starts? (count : Nat) (t : Turn) : Option Nat :=
  match t.act with
  | .step _ => if t.pump < count then some t.pump else none
  | .wire _ => none

variable {key : SessionKey} {config : Config.SessionConfig} {s : Rivals}

/-- What holds of all pumps that serve one session or try to. -/
structure Sound (key : SessionKey) (config : Config.SessionConfig) (s : Rivals) : Prop where
  registered : Registered key config s.hub
  rivals : ∀ p ∈ s.pumps, Rival key config s.hub p

theorem turn_of_none {t : Turn} (beyond : s.pumps[t.pump]? = none) : s.turn t = s := by
  unfold turn
  rw [beyond]

theorem turn_of_some {t : Turn} {p : Pump} (there : s.pumps[t.pump]? = some p) :
    s.turn t = ⟨(t.act.result s.hub p).1, s.pumps.set t.pump (t.act.result s.hub p).2⟩ := by
  unfold turn
  rw [there]

theorem Sound.turn (sound : Sound key config s) (t : Turn) : Sound key config (s.turn t) := by
  cases there : s.pumps[t.pump]? with
  | none =>
      rw [turn_of_none there]
      exact sound
  | some p =>
      have rival := sound.rivals p (List.mem_of_getElem? there)
      rw [turn_of_some there]
      cases t.act with
      | step choice =>
          obtain ⟨next, registered, onward⟩ := rival.step sound.registered choice
          refine ⟨registered, ?_⟩
          intro q among
          rcases List.mem_or_eq_of_mem_set among with old | rfl
          · exact (sound.rivals q old).onward onward
          · exact next
      | wire up =>
          refine ⟨sound.registered, ?_⟩
          intro q among
          rcases List.mem_or_eq_of_mem_set among with old | rfl
          · exact sound.rivals q old
          · exact ⟨rival.serves, rival.assembler, rival.known, rival.departing⟩

/-! ### One queue -/

structure Fresh (p : Pump) : Prop where
  stage : p.stage = .starting
  calls : p.calls = []
  written : p.written = []

/-- A pump that does not serve: it has not started, or is done. It has written nothing. -/
structure Idle (p : Pump) : Prop where
  written : p.written = []
  rests : p.stage = .starting ∧ p.calls = [] ∨ p.stage = .done

/-- The queue has not been handed over, and no pump has started. -/
structure Unserved (key : SessionKey) (s : Rivals) : Prop where
  kept : handedOver key s.hub = false
  fresh : ∀ p ∈ s.pumps, Fresh p

/-- One pump has been given the queue. The others do not serve. -/
structure Served (key : SessionKey) (i : Nat) (s : Rivals) : Prop where
  handed : handedOver key s.hub = true
  started : ∀ p, s.pumps[i]? = some p → p.stage ≠ .starting
  others : ∀ j p, j ≠ i → s.pumps[j]? = some p → Idle p

theorem handedOver_iff {h : Hub} :
    handedOver key h = true ↔ ∃ t, h.session? key = some t ∧ t.holder ≠ .session := by
  unfold handedOver
  cases h.session? key with
  | none => simp only [Option.any_none, Bool.false_eq_true, reduceCtorEq, false_and, exists_false]
  | some t => simp only [Option.any_some, bne_iff_ne, Option.some.injEq, exists_eq_left']

theorem handedOver_of_feeds {h k : Hub} (fed : Hub.Feeds h k) (handed : handedOver key h = true) :
    handedOver key k = true := by
  obtain ⟨t, found, held⟩ := handedOver_iff.mp handed
  obtain ⟨t', there, feeds⟩ := fed key t found held
  refine handedOver_iff.mpr ⟨t', there, ?_⟩
  rw [feeds.holder]
  exact held

variable {h : Hub} {p : Pump} {i : Nat}

/-- A pump that has the queue keeps it until it drops it; one that starts where nobody has the
queue gets it. -/
theorem step_hands (rival : Rival key config h p) (registered : Registered key config h)
    (calls : p.calls = []) (turn : handedOver key h = false ↔ p.stage = .starting)
    (choice : Option Pump.Choice) :
    handedOver key (p.step h choice).1 = true ∧ (p.step h choice).2.stage ≠ .starting := by
  obtain ⟨⟨t, found, policy⟩, -⟩ := registered
  obtain rfl := rival.serves
  have does := Pump.step_does found calls (by rw [policy]; exact rival.assembler) choice
  generalize p.step h choice = result at does ⊢
  obtain ⟨-, -, g, moves, fed, -⟩ := does
  have attends : t.holder = .session ↔ p.stage = .starting := by
    rw [← turn, Bool.eq_false_iff, ne_eq, handedOver_iff]
    simp only [found, Option.some.injEq, exists_eq_left', ne_eq, not_not]
  obtain ⟨-, held, started⟩ := moves.keeps attends
  refine ⟨handedOver_of_feeds fed (handedOver_iff.mpr ⟨g t, ?_, held⟩), started⟩
  rw [Hub.session?_modify, if_pos rfl, found, Option.map_some]

theorem step_serves (rival : Rival key config h p) (registered : Registered key config h)
    (started : p.stage ≠ .starting) (handed : handedOver key h = true)
    (choice : Option Pump.Choice) :
    handedOver key (p.step h choice).1 = true ∧ (p.step h choice).2.stage ≠ .starting := by
  cases calls : p.calls with
  | nil =>
      refine step_hands rival registered calls ⟨fun kept => ?_, fun starting => ?_⟩ choice
      · exact absurd (handed.symm.trans kept) nofun
      · exact absurd starting started
  | cons c rest =>
      rw [Pump.step_of_calls calls]
      exact ⟨handedOver_of_feeds (Hub.feeds_step h c) handed, started⟩

/-- Whatever a pump that does not serve does next, to sessions whose queue has been handed over it
gives messages at most, and it does not begin to serve. -/
theorem Idle.step (idle : Idle p) (serves : p.key = key) (handed : handedOver key h = true)
    (choice : Option Pump.Choice) : Hub.Feeds h (p.step h choice).1 ∧ Idle (p.step h choice).2 := by
  subst serves
  rcases idle.rests with ⟨starting, calls⟩ | done
  · obtain ⟨t, found, held⟩ := handedOver_iff.mp handed
    rw [Pump.step_of_starting calls starting, Pump.start_of_served found held]
    exact ⟨Hub.feeds_of_sessions rfl, idle.written, .inr rfl⟩
  · cases calls : p.calls with
    | nil =>
        have rests : p.step h choice = (h, p) := by
          unfold Pump.step
          rw [calls, done]
        rw [rests]
        exact ⟨Hub.feeds_of_sessions rfl, idle⟩
    | cons c rest =>
        rw [Pump.step_of_calls calls]
        exact ⟨Hub.feeds_step h c, idle.written, .inr done⟩

theorem Fresh.idle (fresh : Fresh p) : Idle p := ⟨fresh.written, .inl ⟨fresh.stage, fresh.calls⟩⟩

theorem Served.turn (served : Served key i s) (sound : Sound key config s) (t : Turn) :
    Served key i (s.turn t) := by
  cases there : s.pumps[t.pump]? with
  | none =>
      rw [turn_of_none there]
      exact served
  | some p =>
      have rival := sound.rivals p (List.mem_of_getElem? there)
      -- What becomes of the pump whose turn it is decides the rest.
      have next (act : handedOver key (t.act.result s.hub p).1 = true)
          (own : t.pump = i → (t.act.result s.hub p).2.stage ≠ .starting)
          (other : t.pump ≠ i → Idle (t.act.result s.hub p).2) : Served key i (s.turn t) := by
        rw [turn_of_some there]
        refine ⟨act, ?_, ?_⟩
        · intro q now
          rw [List.getElem?_set] at now
          split at now
          · rename_i same
            split at now
            · rw [← Option.some.inj now]
              exact own same
            · exact absurd now nofun
          · exact served.started q now
        · intro j q apart now
          rw [List.getElem?_set] at now
          split at now
          · rename_i same
            split at now
            · rw [← Option.some.inj now]
              exact other fun mine => apart (same.symm.trans mine)
            · exact absurd now nofun
          · exact served.others j q apart now
      cases act : t.act with
      | wire up =>
          rw [act] at next
          refine next served.handed ?_ ?_
          · rintro rfl
            exact served.started p there
          · intro apart
            have idle := served.others t.pump p apart there
            exact ⟨idle.written, idle.rests⟩
      | step choice =>
          rw [act] at next
          by_cases mine : t.pump = i
          · have serves := step_serves rival sound.registered (served.started p (mine ▸ there))
              served.handed choice
            exact next serves.1 (fun _ => serves.2) fun apart => absurd mine apart
          · obtain ⟨fed, idle⟩ := (served.others t.pump p mine there).step rival.serves
              served.handed choice
            exact next (handedOver_of_feeds fed served.handed) (fun same => absurd same mine)
              fun _ => idle

theorem Unserved.starts (unserved : Unserved key s) (sound : Sound key config s) {t : Turn}
    {choice : Option Pump.Choice} (act : t.act = .step choice)
    (there : s.pumps[t.pump]? = some p) : Served key t.pump (s.turn t) := by
  have among := List.mem_of_getElem? there
  have fresh := unserved.fresh p among
  obtain ⟨handed, started⟩ := step_hands (sound.rivals p among) sound.registered fresh.calls
    ⟨fun _ => fresh.stage, fun _ => unserved.kept⟩ choice
  rw [turn_of_some there, act]
  refine ⟨handed, ?_, ?_⟩
  · intro q now
    rw [List.getElem?_set_self (List.getElem?_eq_some_iff.mp there).1] at now
    rw [← Option.some.inj now]
    exact started
  · intro j q apart now
    rw [List.getElem?_set_ne (Ne.symm apart)] at now
    exact (unserved.fresh q (List.mem_of_getElem? now)).idle

theorem Unserved.turn (unserved : Unserved key s) {t : Turn}
    (quiet : t.starts? s.pumps.length = none) : Unserved key (s.turn t) := by
  cases there : s.pumps[t.pump]? with
  | none =>
      rw [turn_of_none there]
      exact unserved
  | some p =>
      have within := (List.getElem?_eq_some_iff.mp there).1
      rw [turn_of_some there]
      unfold Turn.starts? at quiet
      cases act : t.act with
      | step choice =>
          simp only [act, if_pos within, reduceCtorEq] at quiet
      | wire up =>
          refine ⟨unserved.kept, ?_⟩
          intro q among
          rcases List.mem_or_eq_of_mem_set among with old | rfl
          · exact unserved.fresh q old
          · have fresh := unserved.fresh p (List.mem_of_getElem? there)
            exact ⟨fresh.stage, fresh.calls, fresh.written⟩

theorem length_turn (s : Rivals) (t : Turn) : (s.turn t).pumps.length = s.pumps.length := by
  cases there : s.pumps[t.pump]? with
  | none => rw [turn_of_none there]
  | some p => rw [turn_of_some there, List.length_set]

theorem Served.run {turns : List Turn} (served : Served key i s) (sound : Sound key config s) :
    Served key i (s.run turns) ∧ s.takers key turns = [] := by
  induction turns generalizing s with
  | nil => exact ⟨served, rfl⟩
  | cons t rest ih =>
      obtain ⟨still, nobody⟩ := ih (served.turn sound t) (sound.turn t)
      refine ⟨still, ?_⟩
      unfold takers
      rw [served.handed, nobody]
      rfl

theorem starts?_eq_some {t : Turn} {count i : Nat} (starts : t.starts? count = some i) :
    ∃ choice, t.act = .step choice ∧ t.pump < count ∧ t.pump = i := by
  unfold Turn.starts? at starts
  cases act : t.act with
  | step choice =>
      simp only [act] at starts
      split at starts
      · rename_i within
        exact ⟨choice, rfl, within, Option.some.inj starts⟩
      · exact absurd starts nofun
  | wire up =>
      simp only [act] at starts
      exact absurd starts nofun

theorem Unserved.run (unserved : Unserved key s) (sound : Sound key config s) (turns : List Turn) :
    s.takers key turns = (turns.findSome? (Turn.starts? s.pumps.length)).toList
      ∧ match turns.findSome? (Turn.starts? s.pumps.length) with
        | none => Unserved key (s.run turns)
        | some i => Served key i (s.run turns) := by
  induction turns generalizing s with
  | nil => exact ⟨rfl, unserved⟩
  | cons t rest ih =>
      rw [List.findSome?_cons]
      unfold takers
      cases starts : t.starts? s.pumps.length with
      | none =>
          have still := unserved.turn starts
          obtain ⟨goes_on, outcome⟩ := ih still (sound.turn t)
          rw [length_turn] at goes_on outcome
          rw [still.kept, Bool.and_false]
          exact ⟨goes_on, outcome⟩
      | some i =>
          obtain ⟨choice, act, within, rfl⟩ := starts?_eq_some starts
          have there := List.getElem?_eq_getElem within
          have served := unserved.starts sound act there
          obtain ⟨still, nobody⟩ := served.run (sound.turn t)
          rw [unserved.kept, served.handed, nobody]
          exact ⟨rfl, still⟩

/-! ### One registration -/

/-- A pump is past the first step of unregistering its session. -/
def Departed (key : SessionKey) (p : Pump) : Prop :=
  p.stage = .done ∧ p.calls.getLast? ≠ some (.closeSession key)

/-- As long as the listeners bear with errors, a session is closed by pumps that unregister it and
by nobody else. -/
structure Untroubled (key : SessionKey) (serial : Nat) (s : Rivals) : Prop where
  audience : s.hub.Audience Session.Listener.Bears serial
  waits : ∀ p ∈ s.pumps, ∀ c ∈ p.calls, ∀ l ∈ Hub.waiting c, l.Bears
  reports : ∀ p ∈ s.pumps, p.stage ≠ .done → ∀ c ∈ p.calls, c.Reports key
  opened : key ∈ s.hub.registry.live → s.hub.phase key = .opened
  left : key ∉ s.hub.registry.live → ∃ (j : Nat) (p : Pump), s.pumps[j]? = some p ∧ Departed key p

variable {serial : Nat} {q : Pump} {k : Hub} {j : Nat}

/-- What has to be known of a pump that has moved and of the hub that it leaves. -/
structure Moved (key : SessionKey) (serial : Nat) (h : Hub) (p : Pump) (k : Hub) (q : Pump) :
    Prop where
  audience : k.Audience Session.Listener.Bears serial
  waits : ∀ c ∈ q.calls, ∀ l ∈ Hub.waiting c, l.Bears
  reports : q.stage ≠ .done → ∀ c ∈ q.calls, c.Reports key
  opened : key ∈ k.registry.live → k.phase key = .opened
  left : key ∉ k.registry.live → Departed key q ∨ key ∉ h.registry.live ∧ ¬Departed key p

theorem Untroubled.set (untroubled : Untroubled key serial s) (there : s.pumps[j]? = some p)
    (moved : Moved key serial s.hub p k q) :
    Untroubled key serial ⟨k, s.pumps.set j q⟩ := by
  have within := (List.getElem?_eq_some_iff.mp there).1
  refine ⟨moved.audience, ?_, ?_, moved.opened, ?_⟩
  · intro r among
    rcases List.mem_or_eq_of_mem_set among with old | rfl
    · exact untroubled.waits r old
    · exact moved.waits
  · intro r among
    rcases List.mem_or_eq_of_mem_set among with old | rfl
    · exact untroubled.reports r old
    · exact moved.reports
  · intro gone
    rcases moved.left gone with departed | ⟨before, still⟩
    · exact ⟨j, q, List.getElem?_set_self within, departed⟩
    · -- The one that had departed is another one.
      obtain ⟨m, r, found, departed⟩ := untroubled.left before
      refine ⟨m, r, ?_, departed⟩
      rw [List.getElem?_set_ne, found]
      rintro rfl
      rw [Option.some.inj (there.symm.trans found)] at still
      exact still departed

theorem Untroubled.idle (untroubled : Untroubled key serial s) (sound : Sound key config s)
    (among : p ∈ s.pumps) (calls : p.calls = []) (choice : Option Pump.Choice) :
    Moved key serial s.hub p (p.step s.hub choice).1 (p.step s.hub choice).2 := by
  obtain ⟨⟨t, found, -⟩, -⟩ := sound.registered
  have serves := (sound.rivals p among).serves
  rw [← serves] at found
  obtain ⟨standing, next⟩ := Pump.step_next found calls choice
  have same := (Pump.sameAudience_byPump key).step s.hub serves calls choice
  generalize p.step s.hub choice = result at standing next same ⊢
  obtain ⟨k, q⟩ := result
  have audience : k.Audience Session.Listener.Bears serial :=
    untroubled.audience.of_eq (congrArg Registry.serial same.registry)
      (congrArg Registry.listeners same.registry) same.cast
  have opened (live : key ∈ k.registry.live) : k.phase key = .opened := by
    rw [standing.live] at live
    rw [standing.phase]
    exact untroubled.opened live
  have gone (out : key ∉ k.registry.live) : key ∉ s.hub.registry.live := by
    rwa [standing.live] at out
  dsimp only at next
  cases next with
  | departs undone done left =>
      rw [serves] at left
      refine ⟨audience, ?_, fun not_done => absurd done not_done, opened, ?_⟩
      · rw [left]
        exact List.forall_mem_singleton.mpr (List.forall_mem_nil _)
      · exact fun out => .inr ⟨gone out, fun departed => undone departed.1⟩
  | goesOn undone still reports =>
      rw [serves] at reports
      refine ⟨audience, ?_, ?_, opened, ?_⟩
      · intro c pending
        obtain ⟨e, rfl⟩ := reports c pending
        exact List.forall_mem_nil _
      · intro _ c pending
        obtain ⟨e, rfl⟩ := reports c pending
        exact .report
      · exact fun out => .inr ⟨gone out, fun departed => undone departed.1⟩
  | rests done =>
      refine ⟨audience, ?_, fun not_done => absurd done not_done, opened, ?_⟩
      · rw [calls]
        exact List.forall_mem_nil _
      · refine fun _ => .inl ⟨done, ?_⟩
        rw [calls]
        exact nofun

theorem Untroubled.call {c : Call} {rest : List Call} (untroubled : Untroubled key serial s)
    (sound : Sound key config s) (among : p ∈ s.pumps) (calls : p.calls = c :: rest) :
    Moved key serial s.hub p (c.step s.hub).1 { p with calls := (c.step s.hub).2 ++ rest } := by
  have waits := untroubled.waits p among
  have reports := untroubled.reports p among
  have rival := sound.rivals p among
  have old := sound.registered.old
  obtain ⟨-, spared⟩ := rival.call old calls
  have departing := rival.departing
  rw [calls] at waits reports departing
  obtain ⟨audience, waits'⟩ := untroubled.audience.step c (waits c List.mem_cons_self)
  have waiting : ∀ m ∈ (c.step s.hub).2 ++ rest, ∀ l ∈ Hub.waiting m, l.Bears := by
    intro m pending
    rcases List.mem_append.mp pending with new | later
    · exact waits' m new
    · exact waits m (List.mem_cons_of_mem c later)
  by_cases done : p.stage = .done
  · have undone (not_done : p.stage ≠ .done) : ∀ m ∈ (c.step s.hub).2 ++ rest, m.Reports key :=
      absurd done not_done
    by_cases gone : key ∈ s.hub.registry.live
    · cases departing done with
      | begins call =>
          obtain ⟨rfl, rfl⟩ := List.cons.inj call
          have out : key ∉ (Call.step s.hub (.closeSession key)).1.registry.live := by
            simp [Call.step]
          refine ⟨audience, waiting, undone, fun live => absurd live out, ?_⟩
          refine fun _ => .inl ⟨done, ?_⟩
          rw [List.append_nil]
          exact Call.getLast?_step s.hub (.closeSession key) key
      | removed _ out => exact absurd gone out
      | closed out => exact absurd gone out
    · refine ⟨audience, waiting, undone, fun live => absurd live (spared.gone gone), ?_⟩
      intro _
      by_cases last : (c :: rest).getLast? = some (.closeSession key)
      · refine .inr ⟨gone, fun departed => departed.2 ?_⟩
        rw [calls]
        exact last
      · exact .inl ⟨done, Call.getLast?_work s.hub c last⟩
  · obtain ⟨same, more⟩ := (reports done c List.mem_cons_self).step old
      (waits c List.mem_cons_self)
    refine ⟨audience, waiting, fun _ => ?_, ?_, ?_⟩
    · intro m pending
      rcases List.mem_append.mp pending with new | later
      · exact more m new
      · exact reports done m (List.mem_cons_of_mem c later)
    · intro live
      rw [same.live] at live
      rw [same.phase]
      exact untroubled.opened live
    · intro out
      rw [same.live] at out
      exact .inr ⟨out, fun departed => done departed.1⟩

theorem Untroubled.turn (untroubled : Untroubled key serial s) (sound : Sound key config s)
    (t : Turn) : Untroubled key serial (s.turn t) := by
  cases there : s.pumps[t.pump]? with
  | none =>
      rw [turn_of_none there]
      exact untroubled
  | some p =>
      have among := List.mem_of_getElem? there
      rw [turn_of_some there]
      apply untroubled.set there
      cases t.act with
      | wire up =>
          refine ⟨untroubled.audience, untroubled.waits p among, untroubled.reports p among,
            untroubled.opened, ?_⟩
          intro out
          by_cases departed : Departed key p
          · exact .inl departed
          · exact .inr ⟨out, departed⟩
      | step choice =>
          cases calls : p.calls with
          | nil => exact untroubled.idle sound among calls choice
          | cons c rest =>
              have moved := untroubled.call sound among calls
              unfold Act.result
              dsimp only
              rw [Pump.step_of_calls calls]
              exact moved

theorem Untroubled.run {turns : List Turn} (untroubled : Untroubled key serial s)
    (sound : Sound key config s) :
    Sound key config (s.run turns) ∧ Untroubled key serial (s.run turns) := by
  induction turns generalizing s with
  | nil => exact ⟨sound, untroubled⟩
  | cons t rest ih => exact ih (untroubled.turn sound t) (sound.turn t)

theorem Sound.run {turns : List Turn} (sound : Sound key config s) :
    Sound key config (s.run turns) := by
  induction turns generalizing s with
  | nil => exact sound
  | cons t rest ih => exact ih (sound.turn t)

/-- A session is open and live as long as no pump is past the first step of unregistering it. -/
theorem Untroubled.live_iff (untroubled : Untroubled key serial s) (sound : Sound key config s) :
    s.hub.phase key = .opened ∧ key ∈ s.hub.registry.live
      ↔ ∀ p ∈ s.pumps, p.stage = .done → p.calls = [.closeSession key] := by
  constructor
  · rintro ⟨-, live⟩ p among done
    cases (sound.rivals p among).departing done with
    | begins calls => exact calls
    | removed _ gone => exact absurd live gone
    | closed gone => exact absurd live gone
  · intro none_departed
    have live : key ∈ s.hub.registry.live := by
      by_contra gone
      obtain ⟨j, p, there, done, last⟩ := untroubled.left gone
      rw [none_departed p (List.mem_of_getElem? there) done] at last
      exact last rfl
    exact ⟨untroubled.opened live, live⟩

/-- However many pumps are to serve an open session, and in whatever order they do their steps: the
one that starts first is given the queue, and no other. The others write nothing, call no endpoint
and take nothing out of the queue. But whoever is done unregisters the session, also a pump that has
been turned away, which is done when it has started. So the session is closed and no longer live
once any of them has ended; if no listener closes sessions or opens others over an error, it is open
and live as long as, and only as long as, each pump that is done has still to do the first step of
that. -/
theorem one_serves_until_one_leaves {h : Hub} {t : Session} (found : h.session? key = some t)
    (opened : t.phase = .opened) (live : key ∈ h.registry.live) (unserved : t.holder = .session)
    (count : Nat) (turns : List Turn) :
    let start : Rivals := ⟨h, List.replicate count (.new key t.config)⟩
    let s := start.run turns
    let takers := start.takers key turns
    takers = (turns.findSome? (Turn.starts? count)).toList
      ∧ (∀ j p, j ∉ takers → s.pumps[j]? = some p → p.written = []
        ∧ (p.stage = .starting ∧ p.calls = [] ∨ p.stage = .done)
        ∧ (takers ≠ [] → ∀ choice, s.hub.Feeds (p.step s.hub choice).1))
      ∧ (∀ p ∈ s.pumps, p.hasEnded = true → s.hub.phase key = .closed
        ∧ key ∉ s.hub.registry.live)
      ∧ ((∀ l ∈ h.registry.listeners ++ h.cast, l.Bears) →
        (s.hub.phase key = .opened ∧ key ∈ s.hub.registry.live
          ↔ ∀ p ∈ s.pumps, p.stage = .done → p.calls = [.closeSession key])) := by
  intro start s takers
  have phase : h.phase key = .opened := by
    unfold Hub.phase
    rw [found]
    exact opened
  have begun : Sound key t.config start := by
    refine ⟨⟨⟨t, found, rfl⟩, ?_⟩, ?_⟩
    · rw [phase]
      decide
    · intro p among
      rw [List.eq_of_mem_replicate among]
      refine ⟨rfl, rfl, List.forall_mem_nil _, ?_⟩
      intro done
      cases done
  have waits : Unserved key start := by
    refine ⟨?_, ?_⟩
    · unfold handedOver
      rw [found]
      simp [unserved]
    · intro p among
      rw [List.eq_of_mem_replicate among]
      exact ⟨rfl, rfl, rfl⟩
  have sound : Sound key t.config s := begun.run
  have outcome := waits.run begun turns
  rw [show start.pumps.length = count from List.length_replicate] at outcome
  obtain ⟨first, serving⟩ := outcome
  refine ⟨first, ?_, ?_, ?_⟩
  · intro j p apart there
    have first : takers = _ := first
    cases starts : turns.findSome? (Turn.starts? count) with
    | none =>
        rw [starts] at first serving
        have fresh := serving.fresh p (List.mem_of_getElem? there)
        exact ⟨fresh.written, .inl ⟨fresh.stage, fresh.calls⟩, fun taken => absurd first taken⟩
    | some i =>
        rw [starts] at first serving
        rw [first] at apart
        have idle := serving.others j p (fun same => apart (List.mem_singleton.mpr same)) there
        have serves := (sound.rivals p (List.mem_of_getElem? there)).serves
        exact ⟨idle.written, idle.rests, fun _ choice =>
          (idle.step serves serving.handed choice).1⟩
  · intro p among ended
    obtain ⟨done, calls⟩ : p.stage = .done ∧ p.calls = [] := by simpa [Pump.hasEnded] using ended
    have departing := (sound.rivals p among).departing done
    rw [calls] at departing
    cases departing with
    | begins call | removed _ _ call => exact absurd call (by simp)
    | closed gone closed => exact ⟨closed, gone⟩
  · intro bear
    have untroubled : Untroubled key h.registry.serial start := by
      refine ⟨⟨rfl, ?_, ?_⟩, ?_, ?_, fun _ => phase, fun gone => absurd live gone⟩
      · exact fun l among => bear l (List.mem_append_left _ among)
      · exact fun l among => bear l (List.mem_append_right _ among)
      · intro p among
        rw [List.eq_of_mem_replicate among]
        exact List.forall_mem_nil _
      · intro p among _
        rw [List.eq_of_mem_replicate among]
        exact List.forall_mem_nil _
    exact (untroubled.run begun).2.live_iff sound

def echoing : Session where
  id := .made 0
  matched := { spec := .default, path := [], covered := [] }
  config := {}
  subprotocol := none
  endpoint := .echo
  phase := .opened

def withEcho : Hub where
  sessions := [echoing]
  registry := { live := [0], listeners := [{ name := "L" }] }

/-- The second of two pumps starts first and is opened, then the first starts and is turned away. -/
def crossedTurns : List Turn :=
  [⟨0, .wire false⟩, ⟨1, .step none⟩, ⟨0, .step none⟩, ⟨1, .step none⟩]

theorem one_serves_until_one_leaves_in_two :
    let start : Rivals := ⟨withEcho, List.replicate 2 (.new 0 echoing.config)⟩
    let turns := crossedTurns ++ List.replicate 6 ⟨0, .step none⟩
    let s := start.run crossedTurns
    let later := start.run turns
    start.takers 0 turns = [1] ∧ s.hub.phase 0 = .opened ∧ 0 ∈ s.hub.registry.live
      ∧ later.hub.phase 0 = .closed ∧ 0 ∉ later.hub.registry.live := by
  intro start turns s later
  have found : withEcho.session? 0 = some echoing := rfl
  have live : 0 ∈ withEcho.registry.live := by decide
  have bear : ∀ l ∈ withEcho.registry.listeners ++ withEcho.cast, l.Bears :=
    List.forall_mem_singleton.mpr nofun
  obtain ⟨-, -, -, standing⟩ := one_serves_until_one_leaves found rfl live rfl 2 crossedTurns
  obtain ⟨first, -, ended, -⟩ := one_serves_until_one_leaves found rfl live rfl 2 turns
  have turned_away : ∃ p ∈ later.pumps, p.hasEnded = true := by decide +kernel
  obtain ⟨p, among, concluded⟩ := turned_away
  obtain ⟨opened, still⟩ := (standing bear).mpr (by decide +kernel)
  obtain ⟨closed, gone⟩ := ended p among concluded
  refine ⟨first.trans ?_, opened, still, closed, ?_⟩
  · decide +kernel
  · simpa only [later, start] using gone

/-- A pump that has been turned away closes the session under the pump that serves it, and the
listeners are told. -/
theorem turned_away_closes_session :
    let start : Rivals := ⟨withEcho, List.replicate 2 (.new 0 echoing.config)⟩
    let turns : List Turn := ⟨0, .step none⟩ :: ⟨0, .step none⟩ :: List.replicate 7 ⟨1, .step none⟩
    let s := start.run turns
    withEcho.phase 0 = .opened ∧ 0 ∈ withEcho.registry.live ∧ start.takers 0 turns = [0]
      ∧ (∃ p, s.pumps[0]? = some p ∧ p.stage = .waiting)
      ∧ s.hub.phase 0 = .closed ∧ 0 ∉ s.hub.registry.live
      ∧ s.hub.journal.getLast? = some (.heard ⟨{ name := "L" }, .closed, 0, .closed⟩) := by
  decide +kernel

end Rivals
end Gateway.Connection
