import Gateway.Proofs.Connection.Course
import Gateway.Proofs.Hub.Live
import Gateway.Proofs.Hub.Alone
import Gateway.Proofs.Hub.Reports

/-!
A connection from its first step to its last, among everything else that goes on. Between the steps
of its pump other tasks do theirs, messages are queued, sessions are asked to close and other pumps
serve other sessions.
-/
namespace Gateway.Connection

open Session (Callback Course Outcome)

/-- What can happen between two steps of a pump. -/
inductive Deed where
  | call (c : Call)
  | send (key : SessionKey) (m : Session.Message)
  | requestClose (key : SessionKey)
  | serve (p : Pump) (choice : Option Pump.Choice)
  | make (matched : Path.Match) (config : Config.SessionConfig) (subprotocol : Option String)
      (endpoint : Session.Endpoint)
  | enlist (l : Session.Listener)
  | dismiss (name : String)
  | wait (secs : Nat)

namespace Deed

def result (h : Hub) : Deed → Hub
  | .call c => (c.step h).1
  | .send key m => (h.send key m).1
  | .requestClose key => h.modify key Session.requestClose
  | .serve p choice => (p.step h choice).1
  | .make matched config subprotocol endpoint =>
    (h.create matched config subprotocol endpoint).1
  | .enlist l => { h with registry := h.registry.enlist l }
  | .dismiss name => { h with registry := (h.registry.dismiss name).1 }
  | .wait secs => { h with clock := h.clock + secs }

/-- A deed that neither serves a session nor is the step by which it becomes live. -/
def spares (key : SessionKey) : Deed → Bool
  | .call c => c != .goLive key
  | .serve p _ => p.key != key && p.calls.head? != some (.goLive key)
  | _ => true

end Deed

inductive Turn where
  | own (choice : Option Pump.Choice)
  | elsewhere (d : Deed)
  | wire (up : Bool)

/-- A pump at work, and the calls on the registry that it has done steps of. -/
structure Serving where
  hub : Hub
  pump : Pump
  past : List (Hub × Call) := []

namespace Serving

def turn (s : Serving) : Turn → Serving
  | .own choice =>
    { hub := (s.pump.step s.hub choice).1, pump := (s.pump.step s.hub choice).2,
      past := s.past ++ s.pump.calls.head?.toList.map (s.hub, ·) }
  | .elsewhere d => { s with hub := d.result s.hub }
  | .wire up => { s with pump := { s.pump with writable := up } }

def run (s : Serving) : List Turn → Serving
  | [] => s
  | t :: rest => (s.turn t).run rest

end Serving

/-! ### What others leave alone -/

/-- What others leave alone of a session that is not new. -/
structure Spared (key : SessionKey) (h k : Hub) : Prop where
  appSide : k.appSide key = h.appSide key
  phase : (h.phase key).Moves (k.phase key)
  gone : key ∉ h.registry.live → key ∉ k.registry.live

variable {key : SessionKey} {h k : Hub}

theorem Spared.of_aside (aside : h.Aside k) : Spared key h k where
  appSide := aside.appSide key
  phase := by rw [aside.standing.phase]; exact .stays _
  gone := aside.standing.gone

theorem Spared.old (spared : Spared key h k) : h.phase key ≠ .created → k.phase key ≠ .created :=
  spared.phase.old

theorem Spared.closed (spared : Spared key h k) : h.phase key = .closed → k.phase key = .closed :=
  spared.phase.closed

theorem Spared.of_hears {other : SessionKey} {c : Callback} {o : Option Session.PanicPayload}
    (hears : h.Hears other c o k) (apart : other ≠ key) : Spared key h k where
  appSide := hears.elsewhere key apart
  phase := by rw [hears.standing.phase]; exact .stays _
  gone := hears.standing.gone

/-- A step of a call on the registry makes no session live whose opening is over. -/
theorem spared_call {c : Call} (old : h.phase key ≠ .created) (known : c ≠ .goLive key) :
    Spared key h (c.step h).1 ∧ ∀ m ∈ (c.step h).2, m ≠ .goLive key := by
  refine ⟨⟨?_, (Hub.later_step h c).phase key, ?_⟩, ?_⟩
  · exact Hub.appSide_edit (Hub.session?_step h c key) (fun s => (c.edit_keeps key s).1)
      fun s => (c.edit_keeps key s).2
  · intro gone
    have fewer := Hub.count_live_step h known
    rw [List.count_eq_zero.mpr gone] at fewer
    exact List.count_eq_zero.mp (Nat.le_zero.mp fewer)
  · rintro m among rfl
    cases Hub.left_of_step h c _ among with
    | opening new => exact old new

theorem Pump.Goes.spared {p q : Pump} (goes : p.Goes h (k, q)) (apart : p.key ≠ key) :
    Spared key h k := by
  cases goes with
  | speaks turn hears | fails turn other hears | leaves leaving hears =>
      exact .of_hears hears apart
  | unregisters _ aside | waits _ aside | turnsAway _ _ aside => exact .of_aside aside
  | rests => exact .of_aside (Hub.aside_refl h)

theorem spared_deed {d : Deed} (spares : d.spares key = true) (old : h.phase key ≠ .created)
    (made : h.session? key ≠ none) : Spared key h (d.result h) := by
  cases d with
  | call c => exact (spared_call old (by simpa [Deed.spares] using spares)).1
  | send other m => exact .of_aside (Hub.aside_send h other m)
  | requestClose other =>
      exact .of_aside (Hub.aside_modify h other (fun _ => rfl) (fun _ => rfl) fun _ => rfl)
  | serve p choice =>
      obtain ⟨apart, known⟩ : p.key ≠ key ∧ p.calls.head? ≠ some (.goLive key) := by
        simpa [Deed.spares] using spares
      cases calls : p.calls with
      | nil => exact (p.step_goes calls choice).spared apart
      | cons c rest =>
          have steps : (Deed.serve p choice).result h = (c.step h).1 := by
            rw [Deed.result]
            unfold Pump.step
            rw [calls]
          rw [steps]
          rw [calls] at known
          exact (spared_call old (by simpa using known)).1
  | make matched config subprotocol endpoint =>
      have still : ((Deed.make matched config subprotocol endpoint).result h).session? key
          = h.session? key := by
        refine (Hub.session?_create h matched config subprotocol endpoint key).trans (if_neg ?_)
        rintro rfl
        exact made (Hub.session?_nextKey h)
      have phase : ((Deed.make matched config subprotocol endpoint).result h).phase key
          = h.phase key := by rw [Hub.phase, Hub.phase, still]
      exact ⟨by rw [Hub.appSide, Hub.appSide, still], by rw [phase]; exact .stays _, id⟩
  | enlist | dismiss | wait => exact .of_aside (Hub.aside_of_eq rfl rfl)

/-! ### How far a connection is -/

/-- The calls by which a pump that is done unregisters its session. -/
inductive Unregistering (key : SessionKey) (h : Hub) (calls : List Call) : Prop
  | begins : calls = [.closeSession key] → Unregistering key h calls
  | removed (live : Bool) : key ∉ h.registry.live → calls = [.finishClose key live] →
      Unregistering key h calls
  | closed : key ∉ h.registry.live → h.phase key = .closed → Unregistering key h calls

/-- What an endpoint has had when its pump is at a stage. -/
inductive Reached (key : SessionKey) (h : Hub) (calls : List Call) :
    Pump.Stage → List Outcome → Prop
  | checking {os : List Outcome} : Course.Open os → Reached key h calls .checking os
  | waiting {os : List Outcome} : Course.Open os → Reached key h calls .waiting os
  | leaving {os : List Outcome} {exit : Exit} : Course.Leaving os →
      Reached key h calls (.leaving exit) os
  | unregistering {os : List Outcome} : Course os → Reached key h calls .unregistering os
  | done {os : List Outcome} : Course os → Unregistering key h calls → Reached key h calls .done os

variable {calls : List Call}

theorem Unregistering.keeps (ends : Unregistering key h calls)
    (gone : key ∉ h.registry.live → key ∉ k.registry.live)
    (closed : h.phase key = .closed → k.phase key = .closed) : Unregistering key k calls := by
  cases ends with
  | begins call => exact .begins call
  | removed live out call => exact .removed live (gone out) call
  | closed out shut => exact .closed (gone out) (closed shut)

theorem Unregistering.spared (ends : Unregistering key h calls) (spared : Spared key h k) :
    Unregistering key k calls := ends.keeps spared.gone spared.closed

theorem Unregistering.step {c : Call} {rest : List Call}
    (ends : Unregistering key h (c :: rest)) (spared : Spared key h (c.step h).1) :
    Unregistering key (c.step h).1 ((c.step h).2 ++ rest) := by
  cases ends with
  | begins call =>
      obtain ⟨rfl, rfl⟩ := List.cons.inj call
      exact .removed _ (by simp [Call.step]) rfl
  | removed live gone call =>
      obtain ⟨rfl, rfl⟩ := List.cons.inj call
      exact .closed gone (Hub.phase_markClosed h key)
  | closed gone closed => exact .closed (spared.gone gone) (spared.closed closed)

variable {stage : Pump.Stage} {os : List Outcome}

theorem Reached.spared (reached : Reached key h calls stage os) (spared : Spared key h k) :
    Reached key k calls stage os := by
  cases reached with
  | checking talk => exact .checking talk
  | waiting talk => exact .waiting talk
  | leaving said => exact .leaving said
  | unregistering course => exact .unregistering course
  | done course ends => exact .done course (ends.spared spared)

theorem Reached.call {c : Call} {rest : List Call} (reached : Reached key h (c :: rest) stage os)
    (spared : Spared key h (c.step h).1) :
    Reached key (c.step h).1 ((c.step h).2 ++ rest) stage os := by
  cases reached with
  | checking talk => exact .checking talk
  | waiting talk => exact .waiting talk
  | leaving said => exact .leaving said
  | unregistering course => exact .unregistering course
  | done course ends => exact .done course (ends.step spared)

theorem Reached.talk (reached : Reached key h calls stage os)
    (turn : stage = .checking ∨ stage = .waiting) : Course.Open os := by
  cases reached with
  | checking talk | waiting talk => exact talk
  | leaving | unregistering | done =>
      rcases turn with turn | turn
      · exact absurd turn (by simp)
      · exact absurd turn (by simp)

namespace Serving

variable {e : Session.Endpoint} {heard made : List Callback} {s : Serving}

/-- What its endpoint has had of a connection, and what the listeners have been told or will be. -/
structure Underway (key : SessionKey) (e : Session.Endpoint) (heard made : List Callback)
    (s : Serving) : Prop where
  serves : s.pump.key = key
  appSide : s.hub.appSide key = some (e, heard ++ made)
  old : s.hub.phase key ≠ .created
  known : ∀ c ∈ s.pump.calls, c ≠ .goLive key
  reporting : Hub.Reporting s.pump.calls s.past
    (((e.outcomes heard made).flatMap Outcome.errors).map (key, ·))

theorem Underway.hears {c : Callback} {o : Option Session.PanicPayload} {q : Pump}
    (under : Underway key e heard made s) (idle : s.pump.calls = [])
    (hears : s.hub.Hears key c o k) (same : q.key = key)
    (calls : q.calls = (Outcome.errors (c, o)).map fun e => .report key e) :
    Underway key e heard (made ++ [c]) ⟨k, q, s.past⟩
      ∧ e.outcomes heard (made ++ [c]) = e.outcomes heard made ++ [(c, o)] := by
  obtain ⟨now, rfl⟩ := hears.here e (heard ++ made) under.appSide
  have went := e.outcomes_snoc heard made c
  refine ⟨⟨same, by rw [now, List.append_assoc], ?_, ?_, ?_⟩, went⟩
  · rw [hears.standing.phase]
    exact under.old
  · intro m among
    rw [calls] at among
    obtain ⟨e, -, rfl⟩ := List.mem_map.mp among
    simp
  · have reporting := under.reporting
    rw [idle] at reporting
    have more := reporting.more ((Outcome.errors (c, e.panic? (heard ++ made) c)).map (key, ·))
    rw [List.map_map] at more
    rw [went, List.flatMap_append, List.map_append, List.flatMap_singleton, calls]
    exact more

theorem Underway.aside {q : Pump} (under : Underway key e heard made s) (idle : s.pump.calls = [])
    (aside : s.hub.Aside k) (same : q.key = key)
    (calls : q.calls = [] ∨ q.calls = [.closeSession key]) :
    Underway key e heard made ⟨k, q, s.past⟩ := by
  obtain ⟨-, appSide, old, -, reporting⟩ := under
  have spared : Spared key s.hub k := .of_aside aside
  rw [idle] at reporting
  refine ⟨same, spared.appSide.trans appSide, spared.old old, ?_, ?_⟩
  · intro m among
    rcases calls with none_left | one
    · rw [none_left] at among
      exact absurd among List.not_mem_nil
    · rw [one] at among
      rw [List.mem_singleton.mp among]
      simp
  · rcases calls with none_left | one
    · rw [none_left]
      exact reporting
    · rw [one]
      exact ⟨reporting.announced, reporting.told, List.pairwise_singleton _ _⟩

theorem reports_of_ordinary {c : Callback} (ordinary : c.error? = none)
    (o : Option Session.PanicPayload) :
    Pump.reports key o = (Outcome.errors (c, o)).map fun e => .report key e := by
  rw [Outcome.errors, ordinary]
  cases o with
  | none | some => rfl

theorem reports_of_failed (e : Session.Error) (o : Option Session.PanicPayload) :
    Pump.reports key o ++ [.report key e]
      = (Outcome.errors (.failed e, o)).map fun e => .report key e := by
  cases o with
  | none | some => rfl

/-- A connection of which its endpoint has had what belongs to the pump's stage. -/
def Sound (key : SessionKey) (e : Session.Endpoint) (heard : List Callback) (s : Serving) : Prop :=
  ∃ made, Underway key e heard made s
    ∧ Reached key s.hub s.pump.calls s.pump.stage (e.outcomes heard made)

theorem Sound.call {c : Call} {rest : List Call} (sound : Sound key e heard s)
    (calls : s.pump.calls = c :: rest) : Sound key e heard
      ⟨(c.step s.hub).1, { s.pump with calls := (c.step s.hub).2 ++ rest },
        s.past ++ [(s.hub, c)]⟩ := by
  obtain ⟨made, under, reached⟩ := sound
  obtain ⟨same, appSide, old, known, reporting⟩ := under
  rw [calls] at known reporting reached
  obtain ⟨spared, quiet⟩ := spared_call old (known c List.mem_cons_self)
  refine ⟨made, ⟨same, spared.appSide.trans appSide, spared.old old, ?_, reporting.step⟩,
    reached.call spared⟩
  intro m among
  rcases List.mem_append.mp among with new | later
  · exact quiet m new
  · exact known m (List.mem_cons_of_mem c later)

theorem Sound.goes {q : Pump} (sound : Sound key e heard s) (idle : s.pump.calls = [])
    (goes : s.pump.Goes s.hub (k, q)) : Sound key e heard ⟨k, q, s.past⟩ := by
  obtain ⟨made, under, reached⟩ := sound
  have serves := under.serves
  cases goes with
  | speaks turn hears same calls next =>
      rename_i c o
      rw [serves] at hears calls same
      rcases turn with ⟨starting, -⟩ | ⟨waiting, message⟩
      · rw [starting] at reached
        cases reached
      · have talk := reached.talk (.inr waiting)
        have ordinary : c.error? = none := by
          cases c with
          | failed e => exact absurd message (by simp [Callback.isData])
          | opened | text | binary | closed => rfl
        obtain ⟨under', went⟩ := under.hears idle hears same
          (calls.trans (reports_of_ordinary ordinary o))
        refine ⟨made ++ [c], under', ?_⟩
        rw [went]
        dsimp only
        rw [next]
        cases o with
        | none => exact .checking (talk.data message)
        | some payload => exact .leaving (talk.leaving_data message _)
  | fails turn other hears same calls next =>
      rw [serves] at hears calls same
      obtain ⟨under', went⟩ := under.hears idle hears same (calls.trans (reports_of_failed _ _))
      refine ⟨_, under', ?_⟩
      rw [went]
      dsimp only
      rw [next]
      exact .leaving ((reached.talk turn).leaving_failed other _)
  | leaves leaving hears same calls next =>
      rw [serves] at hears calls same
      obtain ⟨under', went⟩ := under.hears idle hears same
        (calls.trans (reports_of_ordinary rfl _))
      refine ⟨_, under', ?_⟩
      rw [went]
      dsimp only
      rw [leaving] at reached
      rw [next]
      cases reached with
      | leaving said => exact .unregistering (.closed said _)
  | unregisters unregistering aside same calls next =>
      rw [serves] at calls same
      refine ⟨made, under.aside idle aside same (.inr calls), ?_⟩
      dsimp only
      rw [unregistering] at reached
      rw [next]
      cases reached with
      | unregistering course => exact .done course (.begins calls)
  | waits turn aside same calls next =>
      rw [serves] at same
      refine ⟨made, under.aside idle aside same (.inl calls), ?_⟩
      dsimp only
      have talk := reached.talk turn
      rcases next with checking | waiting | ⟨exit, leaving⟩
      · rw [checking]
        exact .checking talk
      · rw [waiting]
        exact .waiting talk
      · rw [leaving]
        exact .leaving talk.leaving
  | rests done => exact ⟨made, under, reached⟩
  | turnsAway starting =>
      rw [starting] at reached
      cases reached

theorem Sound.elsewhere {d : Deed} (sound : Sound key e heard s) (spares : d.spares key = true) :
    Sound key e heard (s.turn (.elsewhere d)) := by
  obtain ⟨made, under, reached⟩ := sound
  have there : s.hub.session? key ≠ none := by
    intro unmade
    have appSide := under.appSide
    rw [Hub.appSide, unmade] at appSide
    exact absurd appSide (by simp)
  have spared := spared_deed spares under.old there
  exact ⟨made, ⟨under.serves, spared.appSide.trans under.appSide, spared.old under.old, under.known,
    under.reporting⟩, reached.spared spared⟩

theorem turn_own_idle (idle : s.pump.calls = []) (choice : Option Pump.Choice) :
    s.turn (.own choice)
      = ⟨(s.pump.step s.hub choice).1, (s.pump.step s.hub choice).2, s.past⟩ := by
  rw [Serving.turn, idle]
  simp

theorem Sound.turn {t : Turn} (sound : Sound key e heard s)
    (spares : ∀ d, t = .elsewhere d → d.spares key = true) : Sound key e heard (s.turn t) := by
  cases t with
  | own choice =>
      cases calls : s.pump.calls with
      | nil =>
          have goes := s.pump.step_goes (h := s.hub) calls choice
          rw [turn_own_idle calls]
          generalize s.pump.step s.hub choice = result at goes ⊢
          obtain ⟨k, q⟩ := result
          exact sound.goes calls goes
      | cons c rest =>
          have next := sound.call calls
          rw [Serving.turn]
          unfold Pump.step
          rw [calls]
          exact next
  | elsewhere d => exact sound.elsewhere (spares d rfl)
  | wire up =>
      obtain ⟨made, under, reached⟩ := sound
      exact ⟨made, ⟨under.serves, under.appSide, under.old, under.known, under.reporting⟩, reached⟩

theorem Sound.run {turns : List Turn} (sound : Sound key e heard s)
    (spares : ∀ d, .elsewhere d ∈ turns → d.spares key = true) :
    Sound key e heard (s.run turns) := by
  induction turns generalizing s with
  | nil => exact sound
  | cons t rest ih =>
      refine ih (sound.turn ?_) fun d among => spares d (List.mem_cons_of_mem t among)
      rintro d rfl
      exact spares d List.mem_cons_self

theorem sound_start {t : Session} (found : h.session? key = some t)
    (registered : t.phase ≠ .created) (unserved : t.holder = .session)
    (choice : Option Pump.Choice) :
    Sound key t.endpoint t.heard ((Serving.mk h (.new key t.config) []).turn (.own choice)) := by
  let s : Serving := ⟨h, .new key t.config, []⟩
  have under : Underway key t.endpoint t.heard [] s := by
    refine ⟨rfl, ?_, ?_, fun c among => absurd among List.not_mem_nil, rfl, rfl, .nil⟩
    · rw [Hub.appSide, found, List.append_nil]
      rfl
    · rw [Hub.phase, found]
      exact registered
  have goes := Pump.step_goes (h := h) (p := .new key t.config) rfl choice
  rw [turn_own_idle (s := s) rfl]
  change Pump.Goes h s.pump (s.pump.step s.hub choice) at goes
  generalize s.pump.step s.hub choice = result at goes ⊢
  obtain ⟨k, q⟩ := result
  cases goes with
  | speaks turn hears same calls next =>
      rename_i c o
      rcases turn with ⟨-, rfl⟩ | ⟨waiting, -⟩
      · obtain ⟨under', went⟩ := under.hears rfl hears same
          (calls.trans (reports_of_ordinary rfl o))
        refine ⟨_, under', ?_⟩
        rw [went]
        dsimp only
        rw [next]
        cases o with
        | none => exact .checking (.intro fun o among => absurd among List.not_mem_nil)
        | some payload => exact .leaving (Course.leaving_opened _)
      · exact absurd waiting (by simp [s, Pump.new])
  | fails turn | waits turn =>
      rcases turn with turn | turn
      · exact absurd turn (by simp [s, Pump.new])
      · exact absurd turn (by simp [s, Pump.new])
  | leaves turn | unregisters turn | rests turn => exact absurd turn (by simp [s, Pump.new])
  | turnsAway _ served => exact absurd unserved (served t found)

/-- However a connection goes, among whatever else happens: if its pump ends, the endpoint has had
a course of callbacks, every panic and error has been reported once, each report has been heard once
by every listener that it read, and the session is closed and no longer live. -/
theorem callbacks_take_their_course {t : Session} (found : h.session? key = some t)
    (registered : t.phase ≠ .created) (unserved : t.holder = .session)
    (choice : Option Pump.Choice) (turns : List Turn)
    (spares : ∀ d, .elsewhere d ∈ turns → d.spares key = true) :
    let s := (Serving.mk h (.new key t.config) []).run (.own choice :: turns)
    s.pump.hasEnded = true → ∃ t' made, s.hub.session? key = some t'
      ∧ t'.heard = t.heard ++ made ∧ Course (t.endpoint.outcomes t.heard made)
      ∧ (Hub.reports s.past).map Report.subject
        = ((t.endpoint.outcomes t.heard made).flatMap Outcome.errors).map (key, ·)
      ∧ Hub.errorsTold s.past = (Hub.reports s.past).flatMap Report.tellings
      ∧ t'.phase = .closed ∧ key ∉ s.hub.registry.live := by
  intro s ended
  have sound : Sound key t.endpoint t.heard s :=
    (sound_start found registered unserved choice).run spares
  obtain ⟨made, under, reached⟩ := sound
  obtain ⟨done, idle⟩ : s.pump.stage = .done ∧ s.pump.calls = [] := by
    simpa [Pump.hasEnded] using ended
  obtain ⟨-, appSide, -, -, reporting⟩ := under
  rw [done, idle] at reached
  rw [idle] at reporting
  obtain ⟨t', there, same⟩ : ∃ t', s.hub.session? key = some t'
      ∧ (t'.endpoint, t'.heard) = (t.endpoint, t.heard ++ made) := by
    rw [Hub.appSide] at appSide
    exact Option.map_eq_some_iff.mp appSide
  cases reached with
  | done course ends =>
      cases ends with
      | begins call | removed _ _ call => exact absurd call (by simp)
      | closed gone closed =>
          refine ⟨t', made, there, (Prod.mk.inj same).2, course, ?_, ?_, ?_, gone⟩
          · rw [← reporting.announced]
            exact (List.append_nil _).symm
          · rw [← reporting.told]
            exact (List.append_nil _).symm
          · rw [Hub.phase, there] at closed
            exact closed

/-- Panics at a text and again when it is closed. -/
def fragile : Session.Endpoint := ⟨fun _ c =>
  match c with
  | .text _ => [.record, .panic (.text "no texts")]
  | .closed => [.panic .opaqueValue]
  | _ => []⟩

def withFragile : Hub where
  sessions := [{ id := .made 0, matched := { spec := .default, path := [], covered := [] },
                 config := {}, subprotocol := none, endpoint := fragile, phase := .opened }]
  registry := {
    live := [0]
    listeners := [.logging, { name := "strict", failed := .closeSession none }] }

/-- It is opened, gets a binary message and a text, and another task takes it out meanwhile. -/
def fragileTurns : List Turn :=
  [.own none, .own (some (.inbound (.binary []))), .own none,
    .elsewhere (.call (.closeSession 0)), .elsewhere (.send 0 (.text "late")),
    .own (some (.inbound (.text "hello")))] ++ List.replicate 40 (.own none)

theorem callbacks_take_a_fragile_course :
    let s := (Serving.mk withFragile (.new 0 {}) []).run (.own none :: fragileTurns);
    let made : List Callback := [.opened, .binary [], .text "hello", .closed];
    let strict : Session.Listener := { name := "strict", failed := .closeSession none };
    s.pump.hasEnded = true ∧ (∀ d, .elsewhere d ∈ fragileTurns → d.spares 0 = true)
      ∧ Course (fragile.outcomes [] made)
      ∧ (Hub.reports s.past).map Report.subject
        = [(0, .endpointPanicked "no texts"), (0, .endpointPanicked "non-string panic payload")]
      ∧ s.hub.hearings.filterMap Hearing.error?
        = [((0, .endpointPanicked "no texts"), .logging),
          ((0, .endpointPanicked "no texts"), strict),
          ((0, .endpointPanicked "non-string panic payload"), .logging),
          ((0, .endpointPanicked "non-string panic payload"), strict)]
      ∧ Hub.errorsTold s.past = s.hub.hearings.filterMap Hearing.error?
      ∧ (∃ t', s.hub.session? 0 = some t' ∧ t'.heard = made ∧ t'.phase = .closed)
      ∧ 0 ∉ s.hub.registry.live := by
  intro s made strict
  have ended : s.pump.hasEnded = true := by decide +kernel
  have heard : (s.hub.session? 0).map Session.heard = some made := by decide +kernel
  have spares : ∀ d, .elsewhere d ∈ fragileTurns → d.spares 0 = true := by
    intro d among
    rcases (by simpa [fragileTurns] using among : d = _ ∨ d = _) with rfl | rfl
    · rfl
    · rfl
  have found : withFragile.session? 0 = some _ := rfl
  obtain ⟨t', had, there, same, course, -, -, closed, gone⟩ :=
    callbacks_take_their_course found (by simp) rfl none fragileTurns spares ended
  have all : had = made := by
    rw [there, Option.map_some, same] at heard
    exact Option.some.inj heard
  subst all
  exact ⟨ended, spares, course, by decide +kernel, by decide +kernel, by decide +kernel,
    ⟨t', there, same, closed⟩, gone⟩

end Serving

end Gateway.Connection
