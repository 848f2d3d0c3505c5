import Gateway.Proofs.Connection.Policies
import Gateway.Proofs.Connection.Stopping
import Gateway.Proofs.Hub.Audience

/-!
One pump among others that are to serve the same session. It works on nothing but reports of errors
until it is done, and then unregisters the session, also if it has been turned away. Reports harm
nobody: they change neither the phase of the session nor whether it is live, unless a listener
that is told of an error closes sessions or opens others.
-/
namespace Gateway

/-- A listener that neither closes sessions nor opens others over the errors that it is told of. -/
def Session.Listener.Bears (l : Session.Listener) : Prop :=
  ∀ key, ∀ c ∈ l.failed.calls key, c = .openSession key

/-- A call that reports an error of a session, or what a bearing listener makes of one. -/
inductive Call.Reports (key : SessionKey) : Call → Prop
  | report {e : Session.Error} : Reports key (.report key e)
  | notify {e : Session.Error} : Reports key (.notify key (.failed e))
  | deliver {e : Session.Error} {index : Nat} {rest : List Session.Listener}
      {faults : List Session.Fault} : Reports key (.deliver key (.failed e) index rest faults)
  | reopen : Reports key (.openSession key)

namespace Call
variable {key : SessionKey} {h : Hub} {c : Call}

theorem step_reopen (old : h.phase key ≠ .created) :
    Hub.SameStanding h (step h (.openSession key)).1 ∧ (step h (.openSession key)).2 = [] := by
  rw [step]
  cases now : h.phase key with
  | created => exact absurd now old
  | opened | closed => exact ⟨Hub.sameStanding_of_eq rfl rfl, rfl⟩

/-- Reports change neither the phase of a session nor whether it is live, and as long as the
listeners bear them they lead to nothing but reports. -/
theorem Reports.step (reports : c.Reports key) (old : h.phase key ≠ .created)
    (bear : ∀ l ∈ Hub.waiting c, l.Bears) :
    Hub.SameStanding h (c.step h).1 ∧ ∀ m ∈ (c.step h).2, m.Reports key := by
  cases reports with
  | report =>
      exact ⟨Hub.sameStanding_of_eq rfl rfl, List.forall_mem_singleton.mpr .notify⟩
  | notify =>
      exact ⟨Hub.sameStanding_of_eq rfl rfl, List.forall_mem_singleton.mpr .deliver⟩
  | reopen =>
      obtain ⟨same, none_left⟩ := step_reopen old
      rw [none_left]
      exact ⟨same, List.forall_mem_nil _⟩
  | @deliver e index rest faults =>
      cases rest with
      | nil => exact ⟨Hub.sameStanding_of_eq rfl rfl, List.forall_mem_nil _⟩
      | cons l rest =>
          refine ⟨(Hub.tell_frame h l key (.failed e) index).1, ?_⟩
          intro m among
          rcases List.mem_append.mp among with inner | goes_on
          · rw [bear l List.mem_cons_self key m inner]
            exact .reopen
          · rw [List.mem_singleton.mp goes_on]
            exact .deliver

theorem getLast?_step (h : Hub) (c : Call) (key : SessionKey) :
    (c.step h).2.getLast? ≠ some (.closeSession key) := by
  cases c with
  | openSession k =>
      rw [step]
      cases h.phase k with
      | created => simp
      | opened | closed => simp
  | finishClose k removed =>
      rw [step]
      dsimp only
      split
      · simp
      · simp
  | deliver k event index rest faults =>
      cases rest with
      | nil => simp [step]
      | cons l rest =>
          intro last
          have goes_on : (step h (.deliver k event index (l :: rest) faults)).2.getLast?
              = some (.deliver k event (index + 1) rest
                (faults ++ (h.tell l k event index).2.toList)) := List.getLast?_concat ..
          rw [goes_on] at last
          exact absurd (Option.some.inj last) (by simp)
  | closeEach count keys =>
      cases keys with
      | nil | cons => simp [step]
  | goLive | closeSession | announce | report | notify | closeAll => simp [step]

theorem getLast?_work {rest : List Call} (h : Hub) (c : Call)
    (last : (c :: rest).getLast? ≠ some (.closeSession key)) :
    ((c.step h).2 ++ rest).getLast? ≠ some (.closeSession key) := by
  cases rest with
  | nil =>
      rw [List.append_nil]
      exact getLast?_step h c key
  | cons d rest =>
      rw [List.getLast?_append_of_ne_nil _ (List.cons_ne_nil d rest)]
      exact last

end Call

namespace Connection

/-! ### One pump among others -/

namespace Pump

variable {h k : Hub} {p q : Pump} {t : Session}

theorem step_of_calls {c : Call} {rest : List Call} (calls : p.calls = c :: rest)
    (choice : Option Choice) :
    p.step h choice = ((c.step h).1, { p with calls := (c.step h).2 ++ rest }) := by
  unfold step
  rw [calls]

/-- Nobody registers or leaves, and nobody else can be named. -/
structure SameAudience (h k : Hub) : Prop where
  registry : k.registry = h.registry
  cast : k.cast = h.cast

theorem sameAudience_byPump (key : SessionKey) : KeptByPump key SameAudience where
  of_eq _ registry cast := ⟨registry, cast⟩
  trans first second := ⟨second.registry.trans first.registry, second.cast.trans first.cast⟩
  send h other m := ⟨(Hub.sameStanding_send h other m).2, Hub.cast_send h other m⟩
  requestClose _ _ := ⟨rfl, rfl⟩
  edit _ _ _ := ⟨rfl, rfl⟩

/-- Where a pump between its calls gets to: it is on its way to unregister its session, or goes on
with nothing to work off but reports, or has been done before. -/
inductive Next (p : Pump) : Pump → Prop
  | departs {q : Pump} : p.stage ≠ .done → q.stage = .done → q.calls = [.closeSession p.key] →
      Next p q
  | goesOn {q : Pump} : p.stage ≠ .done → q.stage ≠ .done →
      (∀ c ∈ q.calls, ∃ e, c = .report p.key e) → Next p q
  | rests : p.stage = .done → Next p p

theorem mem_reports (key : SessionKey) (o : Option Session.PanicPayload) :
    ∀ c ∈ reports key o, ∃ e, c = .report key e := by
  cases o with
  | none => exact List.forall_mem_nil _
  | some payload => exact List.forall_mem_singleton.mpr ⟨_, rfl⟩

/-- Between its calls a pump changes neither the phase of a session nor whether it is live. -/
theorem step_next (found : h.session? p.key = some t) (idle : p.calls = [])
    (choice : Option Choice) :
    Hub.SameStanding h (p.step h choice).1 ∧ p.Next (p.step h choice).2 := by
  by_cases late : p.stage = .starting ∧ t.holder ≠ .session
  · obtain ⟨starting, served⟩ := late
    rw [step_of_starting idle starting, start_of_served found served]
    exact ⟨Hub.sameStanding_of_eq rfl rfl, .departs (by rw [starting]; exact nofun) rfl rfl⟩
  · have goes := p.step_goes (h := h) idle choice
    generalize p.step h choice = result at goes ⊢
    obtain ⟨k, q⟩ := result
    have at_work (turn : p.stage = .checking ∨ p.stage = .waiting) : p.stage ≠ .done := by
      rcases turn with checking | waiting
      · rw [checking]
        exact nofun
      · rw [waiting]
        exact nofun
    cases goes with
    | @speaks _ _ _ o turn hears same calls next =>
        refine ⟨hears.standing, .goesOn ?_ ?_ ?_⟩
        · rcases turn with ⟨starting, -⟩ | ⟨waiting, -⟩
          · rw [starting]
            exact nofun
          · exact at_work (.inr waiting)
        · cases o with
          | none | some => rw [next]; exact nofun
        · dsimp only
          rw [calls]
          exact mem_reports p.key o
    | @fails _ _ _ o _ turn other hears same calls next =>
        refine ⟨hears.standing, .goesOn (at_work turn) ?_ ?_⟩
        · rw [next]
          exact nofun
        · dsimp only
          rw [calls]
          intro c among
          rcases List.mem_append.mp among with panic | error
          · exact mem_reports p.key o c panic
          · exact ⟨_, List.mem_singleton.mp error⟩
    | @leaves _ _ _ o leaving hears same calls next =>
        refine ⟨hears.standing, .goesOn ?_ ?_ ?_⟩
        · rw [leaving]
          exact nofun
        · rw [next]
          exact nofun
        · dsimp only
          rw [calls]
          exact mem_reports p.key o
    | unregisters unregistering aside same calls next =>
        refine ⟨aside.standing, .departs ?_ next calls⟩
        rw [unregistering]
        exact nofun
    | waits turn aside same calls next =>
        refine ⟨aside.standing, .goesOn (at_work turn) ?_ ?_⟩
        · rcases next with checking | waiting | ⟨exit, leaving⟩
          · rw [checking]
            exact nofun
          · rw [waiting]
            exact nofun
          · rw [leaving]
            exact nofun
        · dsimp only
          rw [calls]
          exact List.forall_mem_nil _
    | rests done => exact ⟨Hub.sameStanding_of_eq rfl rfl, .rests done⟩
    | turnsAway starting unserved =>
        exact absurd ⟨starting, unserved t found⟩ late

end Pump

structure Registered (key : SessionKey) (config : Config.SessionConfig) (h : Hub) : Prop where
  found : ∃ t, h.session? key = some t ∧ t.config = config
  old : h.phase key ≠ .created

/-- What is over in the registry stays over. -/
structure Onward (key : SessionKey) (h k : Hub) : Prop where
  gone : key ∉ h.registry.live → key ∉ k.registry.live
  closed : h.phase key = .closed → k.phase key = .closed

/-- A pump that serves a session or is turned away. When it is done it unregisters the session. -/
structure Rival (key : SessionKey) (config : Config.SessionConfig) (h : Hub) (p : Pump) :
    Prop where
  serves : p.key = key
  assembler : p.assembler = .new config.maxTextMessageSize
  known : ∀ c ∈ p.calls, c ≠ .goLive key
  departing : p.stage = .done → Unregistering key h p.calls

variable {key : SessionKey} {config : Config.SessionConfig} {h k : Hub} {p : Pump}

theorem Onward.of_sameStanding (same : Hub.SameStanding h k) : Onward key h k where
  gone := same.gone
  closed shut := (same.phase key).trans shut

theorem Rival.onward (rival : Rival key config h p) (onward : Onward key h k) :
    Rival key config k p where
  serves := rival.serves
  assembler := rival.assembler
  known := rival.known
  departing done := (rival.departing done).keeps onward.gone onward.closed

theorem Rival.call {c : Call} {rest : List Call} (rival : Rival key config h p)
    (old : h.phase key ≠ .created) (calls : p.calls = c :: rest) :
    Rival key config (c.step h).1 { p with calls := (c.step h).2 ++ rest }
      ∧ Spared key h (c.step h).1 := by
  obtain ⟨serves, assembler, known, departing⟩ := rival
  rw [calls] at known departing
  obtain ⟨spared, quiet⟩ := spared_call old (known c List.mem_cons_self)
  refine ⟨⟨serves, assembler, ?_, fun done => (departing done).step spared⟩, spared⟩
  intro m among
  rcases List.mem_append.mp among with new | later
  · exact quiet m new
  · exact known m (List.mem_cons_of_mem c later)

theorem Rival.idle {q : Pump} (rival : Rival key config h p)
    (same : Hub.SameStanding h k) (serves : q.key = p.key) (assembler : q.assembler = p.assembler)
    (next : p.Next q) : Rival key config k q := by
  have served := rival.serves
  refine ⟨serves.trans served, assembler.trans rival.assembler, ?_, ?_⟩
  · cases next with
    | departs _ _ calls =>
        rw [calls]
        exact List.forall_mem_singleton.mpr nofun
    | goesOn _ _ reports =>
        intro c among
        obtain ⟨e, rfl⟩ := reports c among
        exact nofun
    | rests => exact rival.known
  · intro done
    cases next with
    | departs _ _ calls =>
        rw [served] at calls
        exact .begins calls
    | goesOn _ undone => exact absurd done undone
    | rests => exact (rival.onward (.of_sameStanding same)).departing done

theorem Rival.step (rival : Rival key config h p) (registered : Registered key config h)
    (choice : Option Pump.Choice) :
    Rival key config (p.step h choice).1 (p.step h choice).2
      ∧ Registered key config (p.step h choice).1 ∧ Onward key h (p.step h choice).1 := by
  obtain ⟨⟨t, found, policy⟩, old⟩ := registered
  obtain ⟨t', there, as_made⟩ := p.keepsSessions_step h choice key t found
  have same : t'.config = t.config := Session.config_of_asMade as_made
  cases calls : p.calls with
  | nil =>
      rw [← rival.serves] at found
      obtain ⟨standing, next⟩ := Pump.step_next found calls choice
      have does := Pump.step_does found calls (by rw [policy]; exact rival.assembler) choice
      refine ⟨rival.idle standing does.key does.assembler next,
        ⟨⟨t', there, same.trans policy⟩, ?_⟩, .of_sameStanding standing⟩
      rw [standing.phase]
      exact old
  | cons c rest =>
      obtain ⟨still, spared⟩ := rival.call old calls
      rw [Pump.step_of_calls calls] at there ⊢
      exact ⟨still, ⟨⟨t', there, same.trans policy⟩, spared.old old⟩, spared.gone, spared.closed⟩

end Connection
end Gateway
