import Gateway.Http.Admin
import Gateway.Proofs.Hub.Notices

/-!
Operations on a registry, one after the other. Between two of them a session is live just when it
is open, and each has announced what it changed.
-/
namespace Gateway

inductive Operation where
  | openSession (key : SessionKey)
  | closeSession (key : SessionKey)
  | report (key : SessionKey) (e : Session.Error)
  /-- The live sessions are closed in the order that `visit` gives. -/
  | closeAll (first : List SessionKey)
  | enlist (l : Session.Listener) (out : l.keepsOut = true)
  | dismiss (name : String)
  | adminClose (id : Session.Id)

namespace Hub

def begin (h : Hub) : Operation → Hub × List Call
  | .openSession key => (h, [.openSession key])
  | .closeSession key => (h, [.closeSession key])
  | .report key e => (h, [.report key e])
  | .closeAll first => (h, [.closeAll first])
  | .enlist l _ => ({ h with registry := h.registry.enlist l }, [])
  | .dismiss name => ({ h with registry := (h.registry.dismiss name).1 }, [])
  | .adminClose id =>
    match h.find? id with
    | none => (h, [])
    | some key => (Http.Admin.askToClose h key, [.closeSession key])

def perform (h : Hub) (op : Operation) : Hub := (h.begin op).1.run (h.begin op).2

def performAll (h : Hub) : List Operation → Hub
  | [] => h
  | op :: rest => (h.perform op).performAll rest

/-- The faults that the notifications of operations return, notification by notification. -/
def record (h : Hub) : List Operation → List (List Session.Fault)
  | [] => []
  | op :: rest => (h.begin op).1.returned (h.begin op).2 ++ (h.perform op).record rest

/-- A session is live just when it is open, and no session is live twice. -/
structure InStep (h : Hub) : Prop where
  distinct : h.registry.live.Nodup
  live_iff : ∀ key, key ∈ h.registry.live ↔ h.phase key = .opened

variable {h : Hub} {news : List Notice} {live : List SessionKey}

/-! ### Single calls -/

/-- Opening a session that is new makes it live and announces it; any other stays as it is. -/
theorem openSession_settles (key : SessionKey)
    (out : ∀ l ∈ h.registry.listeners, l.keepsOut = true) :
    (h.phase key = .created ∧ ∃ n : Notice, n.subject = (key, .opened)
        ∧ Settles h [.openSession key] [n] (h.registry.live ++ [key])
          fun other => if other = key then .opened else h.phase other)
      ∨ h.phase key ≠ .created ∧ Settles h [.openSession key] [] h.registry.live h.phase := by
  cases now : h.phase key with
  | created =>
      have opens : Call.step h (.openSession key)
          = (h.modify key fun s => s.markOpen.1, [.goLive key]) := by rw [Call.step, now]
      obtain ⟨n, subject, settles⟩ := announce_settles
        (h := (Call.step (h.modify key fun s => s.markOpen.1) (.goLive key)).1) key .opened out
      refine .inl ⟨rfl, n, subject, .step rfl ?_⟩
      rw [opens]
      exact .step rfl (settles.congr rfl (phase_markOpen h now))
  | opened | closed =>
      refine .inr ⟨by simp, .step rfl ?_⟩
      rw [Call.step, now]
      exact settles_nil _

theorem phase_markClosed_eq (h : Hub) (key other : SessionKey) :
    (h.modify key fun s => s.markClosed.1).phase other
      = if other = key then .closed else h.phase other := by
  by_cases same : other = key
  · subst same
    rw [if_pos rfl, phase_markClosed]
  · rw [if_neg same, phase_modify_ne h _ (Ne.symm same)]

theorem closeSession_settles (inStep : h.InStep) (key : SessionKey)
    (out : ∀ l ∈ h.registry.listeners, l.keepsOut = true) : ∃ news,
      news.map Notice.subject = (if key ∈ h.registry.live then [(key, .closed)] else [])
      ∧ Settles h [.closeSession key] news (h.registry.live.filter (· != key))
        fun other => if other = key then .closed else h.phase other := by
  let removed : Hub :=
    { h with registry := { h.registry with live := h.registry.live.filter (· != key) } }
  have removes : Call.step h (.closeSession key)
      = (removed, [.finishClose key (h.registry.live.contains key)]) := rfl
  have phases : ∀ other, (removed.modify key fun s => s.markClosed.1).phase other
      = if other = key then .closed else h.phase other := phase_markClosed_eq removed key
  by_cases live : key ∈ h.registry.live
  · obtain ⟨n, subject, settles⟩ :=
      announce_settles (h := removed.modify key fun s => s.markClosed.1) key .closed out
    refine ⟨[n], by rw [if_pos live, ← subject]; rfl, .step rfl ?_⟩
    have swaps : Call.step removed (.finishClose key (h.registry.live.contains key))
        = (removed.modify key fun s => s.markClosed.1, [.announce key .closed]) := by
      have opened : removed.phase key = .opened := (inStep.live_iff key).mp live
      rw [Call.step, opened, List.contains_iff_mem.mpr live]
      rfl
    rw [removes]
    refine .step rfl ?_
    rw [swaps]
    exact settles.congr rfl phases
  · refine ⟨[], by rw [if_neg live]; rfl, .step rfl ?_⟩
    have swaps : Call.step removed (.finishClose key (h.registry.live.contains key))
        = (removed.modify key fun s => s.markClosed.1, []) := by
      have gone : h.registry.live.contains key = false := by simpa using live
      rw [Call.step, gone]
      rfl
    rw [removes]
    refine .step rfl ?_
    rw [swaps]
    exact (settles_nil _).congr rfl phases

/-! ### Closing in turn -/

theorem Settles.inStep {calls : List Call} {phase : SessionKey → Session.Phase}
    (settles : Settles h calls news live phase) (distinct : live.Nodup)
    (live_iff : ∀ key, key ∈ live ↔ phase key = .opened) : (h.run calls).InStep where
  distinct := by rwa [settles.live]
  live_iff key := by rw [settles.live, settles.phase, live_iff]

theorem InStep.requestClose (inStep : h.InStep) (key : SessionKey) :
    (h.modify key Session.requestClose).InStep where
  distinct := inStep.distinct
  live_iff other := by
    rw [phase_modify h key (f := Session.requestClose) fun s => rfl]
    exact inStep.live_iff other

theorem asked_requestClose {key : SessionKey} (opened : h.phase key = .opened) :
    (h.modify key Session.requestClose).asked key := by
  rw [phase] at opened
  cases found : h.session? key with
  | none =>
      rw [found] at opened
      exact absurd opened (by simp)
  | some s => exact ⟨s.requestClose, by rw [session?_modify, if_pos rfl, found]; rfl, rfl⟩

theorem inStep_closeSession (inStep : h.InStep) (key : SessionKey)
    (settles : Settles h [.closeSession key] news (h.registry.live.filter (· != key))
      fun other => if other = key then .closed else h.phase other) :
    (h.run [.closeSession key]).InStep := by
  refine settles.inStep (inStep.distinct.filter _) ?_
  intro other
  rw [List.mem_filter, inStep.live_iff]
  by_cases same : other = key
  · simp [same]
  · simp [same]

/-- Live sessions that are closed in turn are all asked to close, taken out and announced. -/
theorem closeEach_settles (inStep : h.InStep) (count : Nat) {keys : List SessionKey}
    (distinct : keys.Nodup) (among : ∀ key ∈ keys, key ∈ h.registry.live)
    (out : ∀ l ∈ h.registry.listeners, l.keepsOut = true) : ∃ news,
      news.map Notice.subject = keys.map (·, .closed)
      ∧ Settles h [.closeEach count keys] news (h.registry.live.filter (· ∉ keys))
        (fun other => if other ∈ keys then .closed else h.phase other)
      ∧ ∀ key ∈ keys, (h.run [.closeEach count keys]).asked key := by
  -- On the sessions that are left. Closing one leaves the registry in step and the others live.
  induction keys generalizing h with
  | nil =>
      have all : h.registry.live.filter (· ∉ ([] : List SessionKey)) = h.registry.live :=
        List.filter_eq_self.mpr fun key _ => by simp
      refine ⟨[], rfl, .step rfl ?_, fun key none => absurd none List.not_mem_nil⟩
      rw [Call.step, all]
      split
      · exact settles_nil h
      · exact settles_nil _
  | cons key rest ih =>
      obtain ⟨apart, distinct⟩ := List.nodup_cons.mp distinct
      let asking := h.modify key Session.requestClose
      have asking_inStep : asking.InStep := inStep.requestClose key
      obtain ⟨first, subjects, settles⟩ := closeSession_settles asking_inStep key out
      have is_live : key ∈ h.registry.live := among key List.mem_cons_self
      have subject : first.map Notice.subject = [(key, .closed)] := subjects.trans (if_pos is_live)
      obtain ⟨later, subjects', settles', asked⟩ := ih
        (inStep_closeSession asking_inStep key settles) distinct
        (by
          intro other member
          have differ : other ≠ key := fun same => apart (same ▸ member)
          rw [settles.live, List.mem_filter]
          exact ⟨among other (List.mem_cons_of_mem key member), by simpa using differ⟩)
        (by rw [settles.announced.listeners]; exact out)
      have begins : h.run [.closeEach count (key :: rest)]
          = (asking.run [.closeSession key]).run [.closeEach count rest] := by
        rw [run_cons, ← run_append]
        rfl
      have still : ∀ n ∈ first, (if n.key ∈ rest then Session.Phase.closed
          else (asking.run [.closeSession key]).phase n.key)
            = if n.key = key then .closed else asking.phase n.key := by
        intro n there
        have own : n.subject = (key, .closed) :=
          List.mem_singleton.mp (subject ▸ List.mem_map_of_mem there)
        rw [show n.key = key from congrArg Prod.fst own, settles.phase, if_pos rfl, ite_self]
      refine ⟨first ++ later, ?_, .step rfl ((Settles.append settles settles' still).congr ?_ ?_),
        ?_⟩
      · rw [List.map_append, subject, subjects']
        rfl
      · rw [settles.live, List.filter_filter]
        refine List.filter_congr fun other _ => ?_
        by_cases same : other = key
        · simp [same]
        · simp [same]
      · intro other
        rw [settles.phase, phase_modify h key (f := Session.requestClose) fun s => rfl]
        by_cases same : other = key
        · simp [same]
        · simp [same]
      · intro other member
        rw [begins]
        rcases List.mem_cons.mp member with rfl | member
        · have wish : asking.asked other := asked_requestClose ((inStep.live_iff other).mp is_live)
          exact (later_run _ _).asked other ((later_run _ _).asked other wish)
        · exact asked other member

/-! ### Operations -/

variable {op : Operation}

theorem inStep_of_created (none_live : h.registry.live = [])
    (created : ∀ s ∈ h.sessions, s.phase = .created) : h.InStep where
  distinct := by rw [none_live]; exact .nil
  live_iff key := by
    rw [none_live, phase]
    cases found : h.session? key with
    | none => simp
    | some s => simp [created s (List.mem_of_getElem? found)]

theorem later_askToClose (h : Hub) (key : SessionKey) : Later h (Http.Admin.askToClose h key) := by
  have logged : Later h (h.log .info "Closing session on admin request"
      [("session_id", .session key)]) := later_of_sessions rfl
  exact logged.trans (later_modify _ key .requestClose)

theorem begin_keeps (h : Hub) (op : Operation) : (h.begin op).1.registry.live = h.registry.live
    ∧ (h.begin op).1.registry.faults = h.registry.faults
    ∧ (h.begin op).1.hearings = h.hearings ∧ Later h (h.begin op).1 := by
  cases op with
  | adminClose id =>
      rw [begin]
      cases h.find? id with
      | none => exact ⟨rfl, rfl, rfl, later_of_sessions rfl⟩
      | some key => exact ⟨rfl, rfl, hearings_log h _ _ _, later_askToClose h key⟩
  | openSession | closeSession | report | closeAll | enlist | dismiss =>
      exact ⟨rfl, rfl, rfl, later_of_sessions rfl⟩

theorem begin_listeners (out : ∀ l ∈ h.registry.listeners, l.keepsOut = true) (op : Operation) :
    ∀ l ∈ (h.begin op).1.registry.listeners, l.keepsOut = true := by
  cases op with
  | enlist l mine =>
      intro l' among
      rcases List.mem_append.mp among with old | new
      · exact out l' old
      · rw [List.mem_singleton.mp new]
        exact mine
  | dismiss name =>
      intro l among
      exact out l (List.mem_filter.mp among).1
  | adminClose id =>
      rw [begin]
      cases h.find? id with
      | none | some => exact out
  | openSession | closeSession | report | closeAll => exact out

/-- What an operation announces: each session that it makes live or takes out, once, and the error
that it reports. -/
structure Account (h : Hub) (op : Operation) (news : List Notice) : Prop where
  once : (news.map Notice.subject).Nodup
  opened : ∀ key, (key, .opened) ∈ news.map Notice.subject
    ↔ key ∉ h.registry.live ∧ key ∈ (h.perform op).registry.live
  closed : ∀ key, (key, .closed) ∈ news.map Notice.subject
    ↔ key ∈ h.registry.live ∧ key ∉ (h.perform op).registry.live
  failed : ∀ key e, (key, .failed e) ∈ news.map Notice.subject ↔ op = .report key e

theorem account_of_closing (keys : List SessionKey)
    (subjects : news.map Notice.subject = keys.map (·, .closed)) (distinct : keys.Nodup)
    (gone : ∀ key, key ∈ keys ↔ key ∈ h.registry.live ∧ key ∉ (h.perform op).registry.live)
    (fewer : ∀ key ∈ (h.perform op).registry.live, key ∈ h.registry.live)
    (quiet : ∀ key e, op ≠ .report key e) : Account h op news := by
  refine ⟨?_, ?_, ?_, ?_⟩
  · rw [subjects, List.Nodup, List.pairwise_map]
    refine distinct.imp ?_
    intro a b differ same
    exact differ (Prod.mk.inj same).1
  · intro key
    rw [subjects]
    refine ⟨fun among => by simp at among, ?_⟩
    rintro ⟨absent, present⟩
    exact absurd (fewer key present) absent
  · intro key
    rw [subjects, ← gone]
    simp
  · intro key e
    rw [subjects]
    exact ⟨fun among => by simp at among, fun same => absurd same (quiet key e)⟩

theorem account_silent (same : (h.perform op).registry.live = h.registry.live)
    (quiet : ∀ key e, op ≠ .report key e) : Account h op [] := by
  refine account_of_closing [] rfl .nil ?_ ?_ quiet
  · rw [same]
    simp
  · rw [same]
    exact fun key among => among

/-- An operation settles, with the registry in step, and accounts for its notices. -/
def Accounts (h : Hub) (op : Operation) : Prop := (h.perform op).InStep
  ∧ ∃ news live phase, Settles (h.begin op).1 (h.begin op).2 news live phase ∧ Account h op news

theorem account_openSession (inStep : h.InStep)
    (out : ∀ l ∈ h.registry.listeners, l.keepsOut = true) (key : SessionKey) :
    h.Accounts (.openSession key) := by
  rcases openSession_settles key out with ⟨created, n, subject, settles⟩ | ⟨-, settles⟩
  · have new : key ∉ h.registry.live := by
      rw [inStep.live_iff, created]
      simp
    have left (other : SessionKey) : other ∈ (h.perform (.openSession key)).registry.live
        ↔ other ∈ h.registry.live ∨ other = key := by
      rw [perform, begin, settles.live, List.mem_append, List.mem_singleton]
    refine ⟨settles.inStep ?_ ?_, [n], _, _, settles, ⟨?_, ?_, ?_, ?_⟩⟩
    · refine List.pairwise_append.mpr ⟨inStep.distinct, List.pairwise_singleton _ _, ?_⟩
      intro a old b own same
      rw [List.mem_singleton.mp own] at same
      exact new (same ▸ old)
    · intro other
      rw [List.mem_append, List.mem_singleton, inStep.live_iff]
      by_cases same : other = key
      · simp [same]
      · simp [same]
    · exact List.pairwise_singleton _ _
    · intro other
      rw [left]
      by_cases same : other = key
      · simp [same, subject, new]
      · simp [same, subject]
    · intro other
      rw [left]
      simp +contextual [subject]
    · intro other e
      simp [subject]
  · exact ⟨settles.inStep inStep.distinct inStep.live_iff, [], _, _, settles,
      account_silent settles.live nofun⟩

theorem account_closeSession {k : Hub} {key : SessionKey}
    (begun : h.begin op = (k, [.closeSession key])) (same : k.registry.live = h.registry.live)
    (inStep : k.InStep) (out : ∀ l ∈ k.registry.listeners, l.keepsOut = true)
    (quiet : ∀ key e, op ≠ .report key e) : h.Accounts op := by
  obtain ⟨news, subjects, settles⟩ := closeSession_settles inStep key out
  have performed : h.perform op = k.run [.closeSession key] := by rw [perform, begun]
  rw [Accounts, begun]
  have left (other : SessionKey) :
      other ∈ (h.perform op).registry.live ↔ other ∈ h.registry.live ∧ other ≠ key := by
    rw [performed, settles.live, List.mem_filter, same]
    simp
  refine ⟨by rw [performed]; exact inStep_closeSession inStep key settles, news, _, _, settles, ?_⟩
  by_cases live : key ∈ h.registry.live
  · refine account_of_closing [key] ?_ (by simp) ?_ ?_ quiet
    · rw [subjects, same, if_pos live]
      rfl
    · intro other
      rw [left, List.mem_singleton]
      by_cases own : other = key
      · simp [own, live]
      · simp [own]
    · exact fun other present => ((left other).mp present).1
  · refine account_of_closing [] ?_ .nil ?_ ?_ quiet
    · rw [subjects, same, if_neg live]
      rfl
    · intro other
      rw [left]
      by_cases own : other = key
      · simp [own, live]
      · simp [own]
    · exact fun other present => ((left other).mp present).1

theorem account_report (inStep : h.InStep) (out : ∀ l ∈ h.registry.listeners, l.keepsOut = true)
    (key : SessionKey) (e : Session.Error) : h.Accounts (.report key e) := by
  obtain ⟨n, subject, settles⟩ := report_settles key e out
  have left : (h.perform (.report key e)).registry.live = h.registry.live := settles.live
  refine ⟨settles.inStep inStep.distinct inStep.live_iff, [n], _, _, settles,
    ⟨List.pairwise_singleton _ _, ?_, ?_, ?_⟩⟩
  · intro other
    simp [left, subject]
  · intro other
    simp [left, subject]
  · intro other e'
    simp [subject, eq_comm]

theorem closeAll_settles (inStep : h.InStep) (first : List SessionKey)
    (out : ∀ l ∈ h.registry.listeners, l.keepsOut = true) : ∃ news phase,
      news.map Notice.subject = (visit first h.registry.live).map (·, .closed)
      ∧ Settles h [.closeAll first] news [] phase ∧ (∀ key, phase key ≠ .opened)
      ∧ ∀ key ∈ h.registry.live, (h.run [.closeAll first]).asked key := by
  have perm := visit_perm first h.registry.live
  obtain ⟨news, subjects, settles, asked⟩ := closeEach_settles inStep h.registry.live.length
    (perm.nodup_iff.mpr inStep.distinct) (fun key member => perm.mem_iff.mp member) out
  have none_left : h.registry.live.filter (· ∉ visit first h.registry.live) = [] := by
    rw [List.filter_eq_nil_iff]
    intro key member
    simp [perm.mem_iff.mpr member]
  refine ⟨news, _, subjects, .step rfl (settles.congr none_left fun _ => rfl), ?_, ?_⟩
  · intro key
    by_cases member : key ∈ visit first h.registry.live
    · simp [member]
    · rw [if_neg member]
      exact mt (inStep.live_iff key).mpr (mt perm.mem_iff.mpr member)
  · intro key member
    rw [run_cons]
    exact asked key (perm.mem_iff.mpr member)

theorem account_closeAll (inStep : h.InStep) (first : List SessionKey)
    (out : ∀ l ∈ h.registry.listeners, l.keepsOut = true) : h.Accounts (.closeAll first) := by
  obtain ⟨news, phase, subjects, settles, shut, -⟩ := closeAll_settles inStep first out
  have perm := visit_perm first h.registry.live
  have left : (h.perform (.closeAll first)).registry.live = [] := settles.live
  refine ⟨settles.inStep .nil fun key => ?_, news, _, _, settles,
    account_of_closing _ subjects (perm.nodup_iff.mpr inStep.distinct) ?_ ?_ nofun⟩
  · simp [shut key]
  · intro key
    rw [left, perm.mem_iff]
    simp
  · rw [left]
    exact fun key none => absurd none List.not_mem_nil

theorem account_quiet {k : Hub} (begun : h.begin op = (k, []))
    (live : k.registry.live = h.registry.live) (phase : k.phase = h.phase) (inStep : h.InStep)
    (quiet : ∀ key e, op ≠ .report key e) : h.Accounts op := by
  have performed : h.perform op = k := by rw [perform, begun, run_nil]
  rw [Accounts, performed, begun]
  refine ⟨⟨live ▸ inStep.distinct, fun key => ?_⟩, [], _, _, settles_nil k,
    account_silent (by rw [performed, live]) quiet⟩
  rw [live, phase]
  exact inStep.live_iff key

/-- An operation keeps live and open in step, gives its notices, and accounts for them. -/
theorem perform_account (inStep : h.InStep) (out : ∀ l ∈ h.registry.listeners, l.keepsOut = true)
    (op : Operation) : h.Accounts op := by
  cases op with
  | openSession key => exact account_openSession inStep out key
  | closeSession key => exact account_closeSession rfl rfl inStep out nofun
  | report key e => exact account_report inStep out key e
  | closeAll first => exact account_closeAll inStep first out
  | enlist l mine => exact account_quiet rfl rfl rfl inStep nofun
  | dismiss name => exact account_quiet rfl rfl rfl inStep nofun
  | adminClose id =>
      cases found : h.find? id with
      | none =>
          have begun : h.begin (.adminClose id) = (h, []) := by rw [begin, found]
          exact account_quiet begun rfl rfl inStep nofun
      | some key =>
          have begun : h.begin (.adminClose id)
              = (Http.Admin.askToClose h key, [.closeSession key]) := by rw [begin, found]
          have logged : (h.log .info "Closing session on admin request"
              [("session_id", .session key)]).InStep := ⟨inStep.distinct, inStep.live_iff⟩
          exact account_closeSession begun rfl (logged.requestClose key) out nofun

/-- What operations keep: the registry in step, listeners that keep out, and the fault count equal
to the faults returned. -/
theorem performAll_keeps (inStep : h.InStep)
    (out : ∀ l ∈ h.registry.listeners, l.keepsOut = true) (ops : List Operation) :
    (h.performAll ops).InStep ∧ (∀ l ∈ (h.performAll ops).registry.listeners, l.keepsOut = true)
      ∧ (h.performAll ops).registry.faults
        = h.registry.faults + sumOver List.length (h.record ops) := by
  induction ops generalizing h with
  | nil => exact ⟨inStep, out, rfl⟩
  | cons op rest ih =>
      obtain ⟨after, news, live, phase, ⟨announced, -, -, -⟩, -⟩ := perform_account inStep out op
      obtain ⟨-, faults, -⟩ := begin_keeps h op
      have still : ∀ l ∈ (h.perform op).registry.listeners, l.keepsOut = true := by
        rw [perform, announced.listeners]
        exact begin_listeners out op
      obtain ⟨inStep', out', counted⟩ := ih after still
      refine ⟨inStep', out', ?_⟩
      have here := announced.counted
      rw [faults] at here
      rw [performAll, counted, perform, here, record, sumOver_append, Nat.add_assoc]
      rfl

theorem performAll_append (h : Hub) (ops more : List Operation) :
    h.performAll (ops ++ more) = (h.performAll ops).performAll more := by
  induction ops generalizing h with
  | nil => rfl
  | cons op rest ih => exact ih (h.perform op)

/-- Operations one after the other, whatever the listeners fail over, as long as they keep out.
After each, the live sessions are the open ones and phases have only moved forward. Each session
that has become live or has been taken out was announced once, and nothing else was but the error
that was reported. What listeners have heard since is just these announcements, each heard by all
in order of registration. An announcement returns the faults of the listeners whose reactions
failed, in order; the fault count is what was returned in all. Closing all leaves no session live
and has asked each to close. -/
theorem operations_stay_in_step {h : Hub} (inStep : h.InStep)
    (out : ∀ l ∈ h.registry.listeners, l.keepsOut = true) (ops : List Operation) (op : Operation) :
    let before := h.performAll ops
    let after := h.performAll (ops ++ [op])
    let (begun, calls) := before.begin op
    after.InStep ∧ (∀ key, (before.phase key).Moves (after.phase key))
      ∧ (∃ news : List Notice, (news.map Notice.subject).Nodup
        ∧ (∀ key, (key, .opened) ∈ news.map Notice.subject
          ↔ key ∉ before.registry.live ∧ key ∈ after.registry.live)
        ∧ (∀ key, (key, .closed) ∈ news.map Notice.subject
          ↔ key ∈ before.registry.live ∧ key ∉ after.registry.live)
        ∧ (∀ key e, (key, .failed e) ∈ news.map Notice.subject ↔ op = .report key e)
        ∧ after.hearings = before.hearings
          ++ news.flatMap (fun n => begun.registry.listeners.map n.hearing)
        ∧ begun.tellings calls = news.flatMap (fun n => n.tellings begun.registry.listeners)
        ∧ begun.returned calls = news.map Notice.faults
        ∧ ∀ n ∈ news, n.phase = after.phase n.key
          ∧ n.outcomes.length = begun.registry.listeners.length
          ∧ (∀ (i : Nat) l o, begun.registry.listeners[i]? = some l →
            (∀ k : Hub, k.cause? n.key (l.reaction n.event.kind) = o) → n.outcomes[i]? = some o)
          ∧ (n.faults.Pairwise fun f g => f.index < g.index)
          ∧ ∀ f, f ∈ n.faults
            ↔ f.event = n.event.kind ∧ n.outcomes[f.index]? = some (some f.cause))
      ∧ after.registry.faults
        = h.registry.faults + sumOver List.length (h.record (ops ++ [op]))
      ∧ ∀ first, op = .closeAll first →
        after.registry.live = [] ∧ ∀ key ∈ before.registry.live, after.asked key := by
  intro before after
  obtain ⟨inStep', out', -⟩ := performAll_keeps inStep out ops
  obtain ⟨after_inStep, -, counted⟩ := performAll_keeps inStep out (ops ++ [op])
  have performed : after = before.perform op := performAll_append h ops [op]
  obtain ⟨-, news, live, phase, settles, account⟩ := perform_account inStep' out' op
  have announced := settles.announced
  obtain ⟨-, -, same, begins⟩ := begin_keeps before op
  have later : Later before after := by
    rw [performed]
    exact begins.trans (later_run _ _)
  refine ⟨after_inStep, later.phase, ⟨news, account.once, ?_, ?_, account.failed, ?_,
    announced.told, announced.returned, ?_⟩, counted, ?_⟩
  · rw [performed]
    exact account.opened
  · rw [performed]
    exact account.closed
  · rw [performed, perform, announced.hearings, same]
    rfl
  · intro n among
    refine ⟨?_, announced.complete n among, fun i l o there alike =>
      announced.outcome among there alike, Session.faultsFrom_sorted _ _ _, ?_⟩
    · rw [performed, perform, settles.phase, settles.heardAs n among]
    · intro f
      rw [Notice.faults, Session.mem_faultsFrom]
      simp
  · rintro first rfl
    rw [performed]
    obtain ⟨_, _, -, closes, -, asked⟩ := closeAll_settles inStep' first out'
    exact ⟨closes.live, asked⟩

def withNewSession (listeners : List Session.Listener) : Hub where
  sessions := [{ id := .made 0, matched := { spec := .default, path := [], covered := [] },
                 config := {}, subprotocol := none, endpoint := .echo }]
  registry := { listeners }

/-- Three listeners fail over an opening, and one of them over the closing as well. -/
theorem operations_stay_in_step_among_faults :
    let listeners : List Session.Listener := [
      { name := "failing", opened := .fail "refused", closed := .fail "refused" },
      { name := "panicking", opened := .panic .opaqueValue },
      { name := "wavering", opened := .waver [some (.failed "once")], closed := .waver [none] }];
    let h := withNewSession listeners;
    let after := h.performAll [.openSession 0, .closeAll []];
    h.InStep ∧ (∀ l ∈ listeners, l.keepsOut = true) ∧ after.InStep ∧ after.registry.live = []
      ∧ after.hearings = listeners.map (⟨·, .opened, 0, .opened⟩)
        ++ listeners.map (⟨·, .closed, 0, .closed⟩)
      ∧ h.record [.openSession 0, .closeAll []] = [
        [⟨0, .opened, .failed "refused"⟩, ⟨1, .opened, .panicked "non-string panic payload"⟩,
          ⟨2, .opened, .failed "once"⟩],
        [⟨0, .closed, .failed "refused"⟩]]
      ∧ after.registry.faults = 4 := by
  intro listeners h after
  have inStep : h.InStep := by
    refine inStep_of_created rfl ?_
    intro s among
    rw [List.mem_singleton.mp among]
  have out : ∀ l ∈ h.registry.listeners, l.keepsOut = true := by decide
  obtain ⟨in_step, -, -, counted, emptied⟩ :=
    operations_stay_in_step inStep out [.openSession 0] (.closeAll [])
  have done : (h.interleave [[.openSession 0, .closeAll []]] (.replicate 20 0)).2 = [[]] := by
    decide
  obtain ⟨ran, stepped⟩ := run_of_returned done
  have performed : after = h.run [.openSession 0, .closeAll []] :=
    (run_append h [.openSession 0] [.closeAll []]).symm
  have recorded : h.record [.openSession 0, .closeAll []]
      = h.returned [.openSession 0, .closeAll []] := by
    refine Eq.trans ?_ (returned_append h [.openSession 0] [.closeAll []]).symm
    exact congrArg _ (List.append_nil _)
  have faults : h.record [.openSession 0, .closeAll []] = [
      [⟨0, .opened, .failed "refused"⟩, ⟨1, .opened, .panicked "non-string panic payload"⟩,
        ⟨2, .opened, .failed "once"⟩],
      [⟨0, .closed, .failed "refused"⟩]] := by
    rw [recorded, returned, stepped]
    decide
  refine ⟨inStep, out, in_step, (emptied [] rfl).1, ?_, faults, ?_⟩
  · rw [performed, ran]
    decide
  · exact counted.trans ((Nat.zero_add _).trans (congrArg (sumOver List.length) faults))

end Hub
end Gateway
