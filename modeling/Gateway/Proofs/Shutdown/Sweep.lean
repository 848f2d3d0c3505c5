import Gateway.Proofs.Hub.Alone
import Gateway.Proofs.Hub.Closing
import Gateway.Proofs.Hub.Live
import Gateway.Proofs.Upgrade.Course
import Gateway.Proofs.Upgrade.Leaving

/-!
Closing all sessions while upgrades are under way. The live sessions are read once and closed in
turn, and each exchange goes on in steps of its own. Whatever was live at the reading has been asked
to close in the end, and is gone; a session that an exchange makes live after the reading is not
noticed. Main statement: `Sweep.swept_or_live_since`.
-/
namespace Gateway

open Upgrade (Container Exchange Outcome)

namespace Hub

structure Unmoved (h k : Hub) : Prop where
  registry : k.registry = h.registry
  allowance : ∀ key, k.allowance key = h.allowance key
  asked : ∀ key, h.asked key → k.asked key

variable {h k : Hub}

theorem Undisturbed.unmoved (undisturbed : h.Undisturbed k) : Unmoved h k where
  registry := undisturbed.registry
  allowance key := by rw [allowance, allowance, session?_of_sessions undisturbed.sessions]
  asked key wish := by rwa [asked, session?_of_sessions undisturbed.sessions]

theorem unmoved_create (h : Hub) (matched : Path.Match) (config : Config.SessionConfig)
    (subprotocol : Option String) (endpoint : Session.Endpoint) :
    Unmoved h (h.create matched config subprotocol endpoint).1 where
  registry := rfl
  allowance key := by
    rw [allowance, session?_create, allowance]
    by_cases new : key = h.nextKey
    · subst new
      rw [if_pos rfl, session?_nextKey]
      exact if_pos rfl
    · rw [if_neg new]
  asked key wish := by
    obtain ⟨s, found, asked⟩ := wish
    refine ⟨s, ?_, asked⟩
    rw [session?_create, if_neg, found]
    rintro rfl
    rw [session?_nextKey] at found
    exact absurd found (by simp)

theorem Unmoved.trans {l : Hub} (first : Unmoved h k) (second : Unmoved k l) : Unmoved h l where
  registry := second.registry.trans first.registry
  allowance key := (second.allowance key).trans (first.allowance key)
  asked key wish := second.asked key (first.asked key wish)

end Hub

namespace Upgrade.Exchange

variable {c : Container} {h : Hub} {x : Exchange}

/-- What a turn of an exchange does on the hub: it makes a call on the registry, or at most a
session that is still to be opened. -/
inductive Does (h : Hub) (x : Exchange) : Option Call → Hub → List Call → Prop
  | call {call : Call} {rest : List Call} : x.calls = call :: rest →
      Does h x (some call) (call.step h).1 ((call.step h).2 ++ rest)
  | aside {k : Hub} : h.Unmoved k → Does h x none k x.calls
  | begins {k : Hub} {call : Call} : h.Unmoved k → x.calls = [] → call.isEntry = true →
      Does h x none k [call]

theorem does_nothing {k : Hub} {y : Exchange} (undisturbed : h.Undisturbed k)
    (same : y.calls = x.calls) : Does h x none k y.calls := by
  rw [same]
  exact .aside undisturbed.unmoved

theorem judge_does (matched : Path.Match) (finish : Finish) (none_left : x.calls = []) :
    Does h x none (x.judge h matched finish).1 (x.judge h matched finish).2.calls := by
  cases finish with
  | accept endpoint =>
      rw [judge]
      split
      · exact does_nothing (.trans (.log h _ _ _) (undisturbed_conclude _ _ _)) none_left.symm
      · exact .begins ((Hub.unmoved_create h matched x.response.config x.response.subprotocol
          endpoint).trans (Hub.Undisturbed.log _ _ _ _).unmoved) none_left rfl
  | decline =>
      have logged := Hub.Undisturbed.log h .debug "Creator declined upgrade"
        [("path", .text x.request.path)]
      rw [judge]
      dsimp only
      split
      · exact does_nothing (logged.trans (undisturbed_conclude _ _ _)) none_left.symm
      · exact does_nothing ((logged.trans (undisturbed_fire _ x .succeeded)).trans
          (undisturbed_conclude _ _ _)) none_left.symm
  | fail e => exact does_nothing (undisturbed_failWith h x (.creator e)) none_left.symm
  | panic payload =>
      exact does_nothing (undisturbed_failWith h x (.panicked payload.message)) none_left.symm

theorem step_does (c : Container) (h : Hub) (x : Exchange) :
    Does h x x.calls.head? (x.step c h).1 (x.step c h).2.calls := by
  obtain ⟨request, response, completion, stage⟩ := x
  cases stage with
  | arrived =>
      rw [step]
      dsimp only
      cases c.resolve request.path with
      | none => exact does_nothing (.log h _ _ _) rfl
      | some => exact does_nothing (.refl h) rfl
  | creating matched acts finish =>
      cases acts with
      | nil => exact does_nothing (.refl h) rfl
      | cons a rest =>
          obtain ⟨undisturbed, left⟩ := perform_hub
            (x := ⟨request, response, completion, .creating matched (a :: rest) finish⟩) h matched
            rest finish a rfl
          rw [step]
          cases called : a.call? with
          | none =>
              rw [called] at left
              exact does_nothing undisturbed left
          | some call =>
              rw [called] at left
              rw [left]
              exact .begins undisturbed.unmoved rfl (a.isEntry_of_call? called)
  | calling matched calls acts finish =>
      cases calls with
      | nil => exact does_nothing (.refl h) rfl
      | cons call rest => exact .call rfl
  | created matched finish => exact judge_does matched finish rfl
  | opening key calls =>
      cases calls with
      | nil =>
          exact does_nothing ((undisturbed_fire h
            ⟨request, { response with session := some key }, completion, .opening key []⟩
            .succeeded).trans (undisturbed_conclude _ _ _)) rfl
      | cons call rest => exact .call rfl
  | finished | dropped => exact does_nothing (.refl h) rfl

theorem abandon_does (h : Hub) (x : Exchange) :
    Does h x none (x.abandon h).1 (x.abandon h).2.calls := by
  obtain ⟨request, response, completion, stage⟩ := x
  cases stage with
  | creating matched acts finish =>
      rw [abandon]
      dsimp only
      split
      · exact does_nothing (.refl h) rfl
      · exact does_nothing (.trans (.log h _ _ _) (undisturbed_fire _ _ (.failed .cancelled))) rfl
  | arrived | calling | created | opening | finished | dropped => exact does_nothing (.refl h) rfl

theorem report_does (h : Hub) (x : Exchange) (o : Outcome) :
    Does h x none (x.fire h o).1 (x.fire h o).2.1.calls := by
  refine does_nothing (undisturbed_fire h x o) ?_
  rw [fire_exchange]
  rfl

end Upgrade.Exchange

/-- All sessions are being closed while exchanges are under way. -/
structure Sweep where
  hub : Hub
  closing : List Call := [.closeAll []]
  exchanges : List Exchange

namespace Sweep

inductive Move where
  | close
  | step (i : Nat)
  | drop (i : Nat)
  | report (i : Nat) (o : Outcome)

def turned (c : Container) (s : Sweep) (i : Nat) (t : Upgrade.Turn) : Sweep :=
  { s with hub := (Upgrade.turnAmong c s.hub s.exchanges i t).1
           exchanges := (Upgrade.turnAmong c s.hub s.exchanges i t).2 }

def next (c : Container) (s : Sweep) : Move → Sweep
  | .close =>
    match s.closing with
    | [] => s
    | call :: rest => { s with hub := (call.step s.hub).1, closing := (call.step s.hub).2 ++ rest }
  | .step i => s.turned c i .step
  | .drop i => s.turned c i .drop
  | .report i o => s.turned c i (.report o)

def after (c : Container) (s : Sweep) : List Move → Sweep
  | [] => s
  | m :: rest => (s.next c m).after c rest

def call? (s : Sweep) : Move → Option Call
  | .close => s.closing.head?
  | .step i => s.exchanges[i]?.bind fun x => x.calls.head?
  | .drop _ | .report _ _ => none

/-- The calls on the registry, each with the hub it finds. -/
def history (c : Container) (s : Sweep) : List Move → List (Hub × Call)
  | [] => []
  | m :: rest => ((s.call? m).map (s.hub, ·)).toList ++ (s.next c m).history c rest

def calls (s : Sweep) : List Call := s.closing ++ s.exchanges.flatMap Exchange.calls

variable {c : Container} {s : Sweep}

theorem turned_does (s : Sweep) (i : Nat) (t : Upgrade.Turn) {call : Exchange → Option Call}
    (does : ∀ x : Exchange,
      x.Does s.hub (call x) (x.turn c s.hub t).1 (x.turn c s.hub t).2.calls) :
    (s.exchanges[i]? = none ∧ s.turned c i t = s)
      ∨ ∃ x k left before after, s.exchanges[i]? = some x ∧ x.Does s.hub (call x) k left
        ∧ (s.turned c i t).hub = k ∧ (s.turned c i t).closing = s.closing
        ∧ s.calls = before ++ x.calls ++ after
        ∧ (s.turned c i t).calls = before ++ left ++ after := by
  cases at_i : s.exchanges[i]? with
  | none =>
      refine .inl ⟨rfl, ?_⟩
      simp only [turned, Upgrade.turnAmong, at_i]
  | some x =>
      have within : i < s.exchanges.length := (List.getElem?_eq_some_iff.mp at_i).1
      have split : s.exchanges = s.exchanges.take i ++ x :: s.exchanges.drop (i + 1) := by
        rw [← (List.getElem?_eq_some_iff.mp at_i).2, List.getElem_cons_drop, List.take_append_drop]
      have put (y : Exchange) : s.exchanges.set i y
          = s.exchanges.take i ++ y :: s.exchanges.drop (i + 1) := by
        rw [List.set_eq_take_append_cons_drop, if_pos within]
      have now : s.turned c i t = { s with
          hub := (x.turn c s.hub t).1, exchanges := s.exchanges.set i (x.turn c s.hub t).2 } := by
        simp only [turned, Upgrade.turnAmong, at_i]
      refine .inr ⟨x, _, _, s.closing ++ (s.exchanges.take i).flatMap Exchange.calls,
        (s.exchanges.drop (i + 1)).flatMap Exchange.calls, rfl, does x, by rw [now], by rw [now],
        ?_, ?_⟩
      · rw [calls, congrArg (List.flatMap Exchange.calls) split, List.flatMap_append,
          List.flatMap_cons]
        simp only [List.append_assoc]
      · rw [now, calls]
        dsimp only
        rw [put, List.flatMap_append, List.flatMap_cons]
        simp only [List.append_assoc]

/-- What a move does: it goes on with closing all sessions, or with opening one, or it makes at
most a session that is still to be opened. -/
inductive Goes (s s' : Sweep) : Option Call → Prop
  | close {call : Call} {rest others : List Call} : s.closing = call :: rest →
      s.calls = call :: (rest ++ others) → s'.hub = (call.step s.hub).1 →
      s'.closing = (call.step s.hub).2 ++ rest →
      s'.calls = (call.step s.hub).2 ++ (rest ++ others) → Goes s s' (some call)
  | exchange {call : Call} {before after : List Call} : s.calls = before ++ call :: after →
      s'.hub = (call.step s.hub).1 → s'.closing = s.closing →
      s'.calls = before ++ (call.step s.hub).2 ++ after → Goes s s' (some call)
  | aside : s.hub.Unmoved s'.hub → s'.closing = s.closing →
      (∀ key, s'.calls.count (.goLive key) = s.calls.count (.goLive key)) → Goes s s' none

theorem goes_of_does {s' : Sweep} {x : Exchange} {k : Hub} {left before after : List Call}
    {call : Option Call} (does : x.Does s.hub call k left) (hub : s'.hub = k)
    (closing : s'.closing = s.closing) (calls : s.calls = before ++ x.calls ++ after)
    (calls' : s'.calls = before ++ left ++ after) : Goes s s' call := by
  cases does with
  | @call call rest these =>
      have split : s.calls = before ++ call :: (rest ++ after) := by rw [calls, these]; simp
      exact .exchange split hub closing (by rw [calls']; simp)
  | aside unmoved => exact .aside (hub ▸ unmoved) closing fun key => by rw [calls, calls']
  | @begins k call unmoved none_left entry =>
      have other (key : SessionKey) : call ≠ .goLive key := by
        rintro rfl
        exact absurd entry Bool.false_ne_true
      refine .aside (hub ▸ unmoved) closing fun key => ?_
      rw [calls, calls', none_left]
      simp [List.count_cons_of_ne (other key)]

theorem goes (c : Container) (s : Sweep) (m : Move) : Goes s (s.next c m) (s.call? m) := by
  have still : Goes s s none := .aside (Hub.Undisturbed.refl s.hub).unmoved rfl fun _ => rfl
  cases m with
  | close =>
      rw [next, call?]
      cases left : s.closing with
      | nil => exact still
      | cons call rest =>
          refine .close left ?_ rfl rfl (List.append_assoc _ _ _)
          rw [calls, left, List.cons_append]
  | step i =>
      have does (x : Exchange) := Exchange.step_does c s.hub x
      rw [call?]
      rcases turned_does (c := c) s i .step does with ⟨absent, same⟩
        | ⟨x, k, left, before, after, there, did, hub, closing, calls, calls'⟩
      · rw [absent, next, same]
        exact still
      · rw [there]
        exact goes_of_does did hub closing calls calls'
  | drop i =>
      rcases turned_does (c := c) s i .drop fun x => Exchange.abandon_does s.hub x with
        ⟨-, same⟩ | ⟨x, k, left, before, after, -, did, hub, closing, calls, calls'⟩
      · rw [next, same]
        exact still
      · exact goes_of_does did hub closing calls calls'
  | report i o =>
      rcases turned_does (c := c) s i (.report o) fun x => Exchange.report_does s.hub x o with
        ⟨-, same⟩ | ⟨x, k, left, before, after, -, did, hub, closing, calls, calls'⟩
      · rw [next, same]
        exact still
      · exact goes_of_does did hub closing calls calls'

/-! ### What becomes of a session that was live -/

end Sweep

namespace Call

/-- A call that is going to ask a session to close. -/
def asks (key : SessionKey) : Call → Bool
  | .closeEach _ keys => keys.contains key
  | _ => false

end Call

namespace Hub

variable {h k g : Hub} {key : SessionKey} {c : Call}

theorem exists_of_allowance (old : h.allowance key = 1) :
    ∃ s, h.session? key = some s ∧ s.phase ≠ .created := by
  rw [allowance] at old
  cases found : h.session? key with
  | none => rw [found] at old; exact absurd old (by simp)
  | some s =>
      rw [found] at old
      refine ⟨s, rfl, fun created => ?_⟩
      exact absurd ((if_pos created).symm.trans old) (by decide)

theorem not_created_of_allowance (old : h.allowance key = 1) : h.phase key ≠ .created := by
  obtain ⟨s, found, phase⟩ := exists_of_allowance old
  rwa [Hub.phase, found]

theorem allowance_step (h : Hub) (c : Call) (old : h.allowance key = 1) :
    (c.step h).1.allowance key = 1 := by
  have stands : h.allowance key ≤ (c.step h).1.allowance key :=
    allowance_le key (session?_step h c key) (c.edit_created key)
  have most := allowance_le_one (c.step h).1 key
  omega

/-- A session that is not new leaves the live set for good, and whoever is to close it goes on to
do so while it is live. -/
theorem closes_step (old : h.phase key ≠ .created) (known : c ≠ .goLive key)
    (live : key ∈ (c.step h).1.registry.live) : key ∈ h.registry.live
      ∧ (c.closes key = true → ∃ m ∈ (c.step h).2, m.closes key = true) := by
  have touched := touch c old known
  generalize c.step h = result at touched live ⊢
  cases touched with
  | elsewhere apart phase same quiet goes_on =>
      exact ⟨same.mp live, fun closes => goes_on closes (same.mp live)⟩
  | remove phase gone => exact absurd live gone
  | swap closed same => exact ⟨same ▸ live, fun closes => absurd closes (by simp [Call.closes])⟩
  | notify => exact ⟨live, fun closes => absurd closes (by simp [Call.closes])⟩
  | announce same | delivered same | deliver same =>
      exact ⟨same.live ▸ live, fun closes => absurd closes (by simp [Call.closes])⟩

theorem asks_step (old : h.allowance key = 1) (asks : c.asks key = true) :
    (c.step h).1.asked key ∨ ∃ m ∈ (c.step h).2, m.asks key = true := by
  cases c with
  | closeEach count keys =>
      cases keys with
      | nil => exact absurd asks (by simp [Call.asks])
      | cons first rest =>
          by_cases own : first = key
          · subst own
            obtain ⟨s, found, -⟩ := exists_of_allowance old
            refine .inl ⟨s.requestClose, ?_, rfl⟩
            rw [Call.step, session?_modify, if_pos rfl, found]
            rfl
          · refine .inr ⟨.closeEach count rest, by simp [Call.step], ?_⟩
            simpa [Call.asks, Ne.symm own] using asks
  | _ => exact absurd asks (by simp [Call.asks])

end Hub

namespace Sweep

variable {g h k : Hub} {closing closing' calls calls' : List Call} {since : List (Hub × Call)}
  {c : Call}

/-- What has become of the sessions that were live on one hub, with the calls that are left: those
of closing all sessions, and all of them. -/
structure Since (g h : Hub) (closing calls : List Call) (since : List (Hub × Call)) : Prop where
  old : ∀ key ∈ g.registry.live, h.allowance key = 1 ∧ .goLive key ∉ calls
  asked : ∀ key ∈ g.registry.live, h.asked key ∨ ∃ m ∈ closing, m.asks key = true
  gone : ∀ key ∈ g.registry.live, key ∈ h.registry.live → ∃ m ∈ closing, m.closes key = true
  new : ∀ key ∈ h.registry.live, key ∈ g.registry.live ∨ ∃ f, (f, .goLive key) ∈ since

theorem Since.step (inv : Since g h closing calls since) (within : c ∈ calls)
    (left : ∀ m ∈ calls', m ∈ calls ∨ m ∈ (c.step h).2)
    (keeps : ∀ m ∈ closing, m ∈ closing' ∨ m = c ∧ (c.step h).2 ⊆ closing') :
    Since g (c.step h).1 closing' calls' (since ++ [(h, c)]) where
  old key live := by
    obtain ⟨old, unborn⟩ := inv.old key live
    refine ⟨Hub.allowance_step h c old, fun among => ?_⟩
    rcases left _ among with before | now
    · exact unborn before
    · cases Hub.left_of_step h c _ now with
      | opening created => exact Hub.not_created_of_allowance old created
  asked key live := by
    rcases inv.asked key live with asked | ⟨m, among, asks⟩
    · exact .inl ((Hub.later_step h c).asked key asked)
    · rcases keeps m among with stays | ⟨rfl, goes_on⟩
      · exact .inr ⟨m, stays, asks⟩
      · rcases Hub.asks_step (inv.old key live).1 asks with asked | ⟨m', among', asks'⟩
        · exact .inl asked
        · exact .inr ⟨m', goes_on among', asks'⟩
  gone key live still := by
    obtain ⟨old, unborn⟩ := inv.old key live
    have known : c ≠ .goLive key := by
      rintro rfl
      exact unborn within
    obtain ⟨there, goes_on⟩ :=
      Hub.closes_step (Hub.not_created_of_allowance old) known still
    obtain ⟨m, among, closes⟩ := inv.gone key live there
    rcases keeps m among with stays | ⟨rfl, ahead⟩
    · exact ⟨m, stays, closes⟩
    · obtain ⟨m', among', closes'⟩ := goes_on closes
      exact ⟨m', ahead among', closes'⟩
  new key live := by
    by_cases now : c = .goLive key
    · subst now
      exact .inr ⟨h, List.mem_append_right _ (List.mem_singleton.mpr rfl)⟩
    · have fewer := Hub.count_live_step h now
      have there : key ∈ h.registry.live :=
        List.count_pos_iff.mp (Nat.lt_of_lt_of_le (List.count_pos_iff.mpr live) fewer)
      rcases inv.new key there with old | ⟨f, among⟩
      · exact .inl old
      · exact .inr ⟨f, List.mem_append_left _ among⟩

theorem Since.aside (inv : Since g h closing calls since) (unmoved : h.Unmoved k)
    (same : ∀ key, .goLive key ∈ calls' → .goLive key ∈ calls) :
    Since g k closing calls' since where
  old key live := by
    obtain ⟨old, unborn⟩ := inv.old key live
    exact ⟨(unmoved.allowance key).trans old, fun among => unborn (same key among)⟩
  asked key live := (inv.asked key live).imp_left (unmoved.asked key)
  gone key live still := inv.gone key live (unmoved.registry ▸ still)
  new key live := inv.new key (unmoved.registry ▸ live)

theorem since_read {first : List SessionKey} {others : List Call}
    (once : h.Once (.closeAll first :: others)) :
    let reads := Call.closeEach h.registry.live.length (visit first h.registry.live)
    Since h h [reads] (reads :: others) [] := by
  intro reads
  have listed (key : SessionKey) (live : key ∈ h.registry.live) :
      (visit first h.registry.live).contains key = true :=
    List.contains_iff_mem.mpr ((visit_perm first h.registry.live).mem_iff.mpr live)
  refine ⟨fun key live => ?_, fun key live => ?_, fun key live _ => ?_, fun key live => .inl live⟩
  · have now := once key
    have there := List.count_pos_iff.mpr live
    have most := Hub.allowance_le_one h key
    rw [List.count_cons_of_ne (by simp)] at now
    refine ⟨by omega, fun among => ?_⟩
    have ahead : .goLive key ∈ others :=
      (List.mem_cons.mp among).resolve_left (by simp [reads])
    have := List.count_pos_iff.mpr ahead
    omega
  · exact .inr ⟨reads, List.mem_singleton.mpr rfl, listed key live⟩
  · exact ⟨reads, List.mem_singleton.mpr rfl, listed key live⟩

theorem mem_splice {before more after : List Call} {m : Call}
    (among : m ∈ before ++ more ++ after) : m ∈ before ++ c :: after ∨ m ∈ more := by
  rcases List.mem_append.mp among with front | behind
  · exact (List.mem_append.mp front).imp_left (List.mem_append_left _)
  · exact .inl (List.mem_append_right _ (List.mem_cons_of_mem c behind))

variable {s s' : Sweep} {call : Option Call}

theorem once_goes (once : s.hub.Once s.calls) (goes : Goes s s' call) : s'.hub.Once s'.calls := by
  cases goes with
  | @close call rest others closing calls hub closing' calls' =>
      have before : s.hub.Once ([] ++ call :: (rest ++ others)) := calls ▸ once
      rw [hub, calls']
      exact before.step
  | exchange calls hub closing calls' =>
      rw [calls] at once
      rw [hub, calls']
      exact once.step
  | aside unmoved closing count =>
      intro key
      rw [unmoved.registry, unmoved.allowance, count]
      exact once key

/-- Whatever comes next, it is known what becomes of those who were live. -/
theorem Since.goes (inv : Since g s.hub s.closing s.calls since) (goes : Goes s s' call) :
    Since g s'.hub s'.closing s'.calls (since ++ (call.map (s.hub, ·)).toList) := by
  cases goes with
  | @close call rest others closing calls hub closing' calls' =>
      rw [hub]
      refine inv.step (by rw [calls]; simp) ?_ ?_
      · rw [calls, calls']
        exact fun m (among : m ∈ [] ++ (call.step s.hub).2 ++ (rest ++ others)) =>
          mem_splice among
      · intro m among
        rw [closing] at among
        rw [closing']
        rcases List.mem_cons.mp among with rfl | later
        · exact .inr ⟨rfl, List.subset_append_left _ _⟩
        · exact .inl (List.mem_append_right _ later)
  | @exchange call before after calls hub closing calls' =>
      rw [hub, closing]
      refine inv.step (by rw [calls]; simp) ?_ fun m among => .inl among
      rw [calls, calls']
      exact fun m => mem_splice
  | aside unmoved closing count =>
      rw [Option.map_none, Option.toList_none, List.append_nil, closing]
      refine inv.aside unmoved fun key among => ?_
      exact List.count_pos_iff.mp (count key ▸ List.count_pos_iff.mpr among)

theorem since_after (c : Container) (inv : Since g s.hub s.closing s.calls since)
    (moves : List Move) : Since g (s.after c moves).hub (s.after c moves).closing
      (s.after c moves).calls (since ++ s.history c moves) := by
  induction moves generalizing s since with
  | nil =>
      rw [after, history, List.append_nil]
      exact inv
  | cons m rest ih =>
      rw [after, history, ← List.append_assoc]
      exact ih (inv.goes (Sweep.goes c s m))

theorem closing_next (c : Container) (s : Sweep) {m : Move} (other : m ≠ .close) :
    (s.next c m).closing = s.closing := by
  cases m with
  | close => exact absurd rfl other
  | step | drop | report => rfl

theorem after_append (c : Container) (s : Sweep) (early late : List Move) :
    s.after c (early ++ late) = (s.after c early).after c late := by
  induction early generalizing s with
  | nil => rfl
  | cons m rest ih => exact ih (s.next c m)

theorem history_append (c : Container) (s : Sweep) (early late : List Move) :
    s.history c (early ++ late) = s.history c early ++ (s.after c early).history c late := by
  induction early generalizing s with
  | nil => rfl
  | cons m rest ih => rw [List.cons_append, history, history, ih, List.append_assoc]; rfl

/-- A closing that has got on was gone on with at some time, which was the first time. -/
theorem first_close (c : Container) {moves : List Move}
    (moved : (s.after c moves).closing ≠ s.closing) : ∃ early late,
      moves = early ++ .close :: late ∧ (∀ m ∈ early, m ≠ .close)
        ∧ (s.after c early).closing = s.closing := by
  induction moves generalizing s with
  | nil => exact absurd rfl moved
  | cons m rest ih =>
      by_cases now : m = .close
      · exact ⟨[], rest, by rw [now]; rfl, List.forall_mem_nil _, rfl⟩
      · have still := closing_next c s now
        rw [after, ← still] at moved
        obtain ⟨early, late, split, others, unread⟩ := ih moved
        refine ⟨m :: early, late, by rw [split]; rfl, List.forall_mem_cons.mpr ⟨now, others⟩, ?_⟩
        rw [after, unread, still]

theorem once_after (c : Container) (once : s.hub.Once s.calls) (moves : List Move) :
    (s.after c moves).hub.Once (s.after c moves).calls := by
  induction moves generalizing s with
  | nil => exact once
  | cons m rest ih => exact ih (once_goes once (Sweep.goes c s m))

/-- All sessions are closed, those that are named first, and exchanges go on meanwhile, each from
where it stands. Once the closing is done, every session that was live when the live ones were read
has been asked to close and is gone. Whatever is live then went live after the reading. -/
theorem swept_or_live_since (c : Container) (s : Sweep) (moves : List Move)
    (first : List SessionKey) (unread : s.closing = [.closeAll first])
    (once : s.hub.Once s.calls) (done : (s.after c moves).closing = []) :
    ∃ early late, moves = early ++ .close :: late ∧ (∀ m ∈ early, m ≠ .close) ∧
      let g := (s.after c early).hub
      let since := ((s.after c early).next c .close).history c late
      s.history c moves = s.history c early ++ (g, .closeAll first) :: since
        ∧ (∀ key ∈ g.registry.live, (s.after c moves).hub.asked key
          ∧ key ∉ (s.after c moves).hub.registry.live)
        ∧ ∀ key ∈ (s.after c moves).hub.registry.live, ∃ k, (k, .goLive key) ∈ since := by
  have moved : (s.after c moves).closing ≠ s.closing := by rw [done, unread]; simp
  obtain ⟨early, late, rfl, others, waiting⟩ := first_close c moved
  refine ⟨early, late, rfl, others, ?_⟩
  rw [unread] at waiting
  have before := once_after c once early
  generalize at_reading : s.after c early = r at waiting before ⊢
  intro g since
  have calls : r.calls = .closeAll first :: r.exchanges.flatMap Exchange.calls := by
    rw [Sweep.calls, waiting]
    rfl
  rw [calls] at before
  let reads := Call.closeEach r.hub.registry.live.length (visit first r.hub.registry.live)
  have reading : r.next c .close = { r with closing := [reads] } := by
    rw [next, waiting]
    rfl
  have inv : Since r.hub (r.next c .close).hub (r.next c .close).closing (r.next c .close).calls
      [] := by
    rw [reading]
    exact since_read before
  have later := since_after c inv late
  have last : s.after c (early ++ .close :: late) = (r.next c .close).after c late := by
    rw [after_append, at_reading, after]
  rw [last] at done ⊢
  rw [done, List.nil_append] at later
  have none_left {P : Call → Prop} : ¬ ∃ m ∈ ([] : List Call), P m := by simp
  have gone (key : SessionKey) (live : key ∈ g.registry.live) :
      key ∉ ((r.next c .close).after c late).hub.registry.live :=
    fun still => none_left (later.gone key live still)
  refine ⟨?_, ?_, ?_⟩
  · rw [history_append, at_reading, history, call?, waiting]
    rfl
  · exact fun key live => ⟨(later.asked key live).resolve_right none_left, gone key live⟩
  · intro key live
    exact (later.new key live).resolve_left fun old => gone key old live

def besideOneUpgrade (h : Hub) : Sweep where
  hub := h
  exchanges := [{ request := { path := "/a" } }]

def pausing : Upgrade.Creator := fun _ => { acts := [.pause], finish := .accept .echo }

/-- One session is open when the shutdown comes, and another goes live while it is closed. -/
theorem swept_or_live_since_beside_an_upgrade :
    let s := besideOneUpgrade (.withOneSession [.logging])
    let c := Exchange.withOneMapping pausing
    let moves : List Move := [.step 0, .close, .step 0, .close, .close, .step 0, .step 0, .step 0,
      .close, .close, .step 0, .close, .close, .close, .close, .step 0, .step 0, .step 0, .step 0]
    s.hub.Once s.calls ∧ (s.after c moves).closing = []
      ∧ (s.after c moves).hub.registry.live = [1]
      ∧ ∃ early late, moves = early ++ .close :: late ∧ (∀ m ∈ early, m ≠ .close) ∧
        let g := (s.after c early).hub
        let since := ((s.after c early).next c .close).history c late
        s.history c moves = s.history c early ++ (g, .closeAll []) :: since
          ∧ (∀ key ∈ g.registry.live, (s.after c moves).hub.asked key
            ∧ key ∉ (s.after c moves).hub.registry.live)
          ∧ ∀ key ∈ (s.after c moves).hub.registry.live, ∃ k, (k, .goLive key) ∈ since := by
  intro s c moves
  have once : s.hub.Once s.calls := by
    intro key
    by_cases first : key = 0
    · subst first
      decide +kernel
    · have none_live : s.hub.registry.live.count key = 0 :=
        List.count_eq_zero.mpr (by simpa [s, besideOneUpgrade, Hub.withOneSession] using first)
      rw [none_live]
      exact Nat.zero_le _
  have done : (s.after c moves).closing = [] := by decide +kernel
  exact ⟨once, done, by decide +kernel, swept_or_live_since c s moves [] rfl once done⟩

/-- A session whose creator is at work when the live sessions are read: in the end it is open, and
it has not been asked to close. -/
theorem not_every_session_asked : ¬ ∀ (c : Container) (s : Sweep) (moves : List Move),
    s.closing = [.closeAll []] → s.hub.Once s.calls → (s.after c moves).closing = [] →
    (∀ x ∈ (s.after c moves).exchanges, x.hasEnded = true) →
    ∀ key ∈ (s.after c moves).hub.registry.live, (s.after c moves).hub.phase key = .opened →
      (s.after c moves).hub.asked key := by
  intro all
  let s := besideOneUpgrade {}
  let c := Exchange.withOneMapping pausing
  let moves : List Move := [.step 0, .close, .close, .step 0, .step 0, .step 0, .step 0, .step 0,
    .step 0, .step 0, .step 0, .step 0]
  have once : s.hub.Once s.calls := fun key => Nat.zero_le _
  have ended : (s.after c moves).exchanges.all Exchange.hasEnded = true := by decide +kernel
  obtain ⟨session, found, asked⟩ := all c s moves rfl once (by decide +kernel)
    (List.all_eq_true.mp ended) 0 (by decide +kernel) (by decide +kernel)
  have unasked : ((s.after c moves).hub.session? 0).map Session.closeRequested = some false := by
    decide +kernel
  rw [found, Option.map_some, asked] at unasked
  exact absurd unasked (by simp)

end Sweep
end Gateway
