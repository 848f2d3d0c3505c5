import Gateway.Proofs.Connection.Policies
import Gateway.Proofs.Shutdown.Sweep
import Gateway.Proofs.Upgrade.Layers
import Gateway.Proofs.Upgrade.SettingUp

/-!
The policy of an established session. Exchanges come and go in turns on one hub, next to everything
else that happens there. An exchange copies the policy of the mapping that takes it, its creator
writes to the copy, and the session it establishes is under what the creator left. Main statement:
`policies_are_layered`.
-/
namespace Gateway.Upgrade

open Connection (Deed)
open Hub (keepsSessions_of_sessions)
open Gateway.Path (Spec)

/-- A mapping takes a request, which carries the match from then on. -/
def Container.TakesRequest (c : Container) (request : Request) (n : Negotiator) : Prop :=
  ∃ matched, c.resolve request.path = some (n, matched) ∧ request.matched = some matched

namespace Exchange

/-- A session is under the policy of the mapping, with all the acts of the creator over it. -/
def Governs (c : Container) (h : Hub) (x : Exchange) (key : SessionKey) : Prop :=
  ∃ n s, c.TakesRequest x.request n ∧ h.session? key = some s
    ∧ s.config = layAll n.config (n.creator x.request).acts

def Shapes (c : Container) (h : Hub) (x : Exchange) (key : SessionKey) : Prop :=
  ∃ n s left, c.TakesRequest x.request n
    ∧ left = Response.after n.config (n.creator x.request).acts
    ∧ h.session? key = some s ∧ s.config = left.config ∧ s.subprotocol = left.subprotocol

/-- How far the response of an exchange is laid out. A creator that failed early leaves it
unfinished, and makes no session. -/
def Layered (c : Container) (h : Hub) (x : Exchange) : Prop :=
  match x.stage with
  | .arrived => x.response = {}
  | .creating _ rest _ | .calling _ _ rest _ => ∃ n before, c.TakesRequest x.request n
    ∧ (n.creator x.request).acts = before ++ rest ∧ x.response = .after n.config before
  | .created _ finish => x.response.session = none ∧ (finish = .fail .alreadyCompleted ∨ ∃ n,
    c.TakesRequest x.request n ∧ x.response = .after n.config (n.creator x.request).acts)
  | .opening key _ => x.response.session = none ∧ x.Shapes c h key
  | .finished _ | .dropped => ∀ key, x.response.session = some key → x.Shapes c h key

def Establishes (x : Exchange) (key : SessionKey) : Prop :=
  x.response.session = some key ∨ ∃ calls, x.stage = .opening key calls

variable {c : Container} {h k : Hub} {x : Exchange} {key : SessionKey}

theorem Shapes.governs (shapes : x.Shapes c h key) : x.Governs c h key := by
  obtain ⟨n, s, _, taken, rfl, found, policy, -⟩ := shapes
  exact ⟨n, s, taken, found, policy⟩

theorem Shapes.later (shapes : x.Shapes c h key) (kept : h.KeepsSessions k) :
    x.Shapes c k key := by
  obtain ⟨n, s, left, taken, leaves, found, policy, protocol⟩ := shapes
  obtain ⟨t, still, as_made⟩ := kept key s found
  have same := Session.config_of_asMade as_made
  have alike := Session.subprotocol_of_asMade as_made
  exact ⟨n, t, left, taken, leaves, still, same.trans policy, alike.trans protocol⟩

theorem Layered.later (layered : x.Layered c h) (kept : h.KeepsSessions k) : x.Layered c k := by
  obtain ⟨request, response, completion, stage⟩ := x
  cases stage with
  | arrived | creating | calling | created => exact layered
  | opening key calls => exact ⟨layered.1, layered.2.later kept⟩
  | finished | dropped => exact fun key session => (layered key session).later kept

theorem session_of_after {policy : Config.SessionConfig} {acts : List CreatorAct}
    (laid : x.response = .after policy acts) : x.response.session = none := by
  rw [laid]
  rfl

theorem Layered.shapes (layered : x.Layered c h) (established : x.Establishes key) :
    x.Shapes c h key := by
  obtain ⟨request, response, completion, stage⟩ := x
  rcases established with session | ⟨calls, opening⟩
  · cases stage with
    | arrived =>
        obtain rfl : response = {} := layered
        exact absurd session (by simp)
    | creating | calling =>
        obtain ⟨_, _, -, -, laid⟩ := layered
        exact absurd (session.symm.trans (session_of_after laid)) (by simp)
    | created | opening => exact absurd (session.symm.trans layered.1) (by simp)
    | finished | dropped => exact layered key session
  · obtain rfl : stage = .opening key calls := opening
    exact layered.2

theorem Layered.governs (layered : x.Layered c h) (established : x.Establishes key) :
    x.Governs c h key := (layered.shapes established).governs

theorem layered_of_ended (ended : x.hasEnded = true) (session : x.response.session = none) :
    x.Layered c h := by
  obtain ⟨request, response, completion, stage⟩ := x
  cases stage with
  | finished | dropped => exact fun key made => absurd (session.symm.trans made) (by simp)
  | arrived | creating | calling | created | opening => exact absurd ended Bool.false_ne_true

/-! ### Turns -/

theorem layered_perform {n : Negotiator} {before rest : List CreatorAct} {a : CreatorAct}
    {finish : Finish} (h : Hub) (matched : Path.Match)
    (stage : x.stage = .creating matched (a :: rest) finish)
    (taken : c.TakesRequest x.request n)
    (acts : (n.creator x.request).acts = before ++ a :: rest)
    (laid : x.response = .after n.config before) (k : Hub) :
    (x.perform h matched rest finish a).2.Layered c k := by
  have acts' : (n.creator x.request).acts = (before ++ [a]) ++ rest := by
    rw [acts, List.append_assoc, List.singleton_append]
  have laid' := after_snoc n.config before a
  rw [← laid] at laid'
  cases a with
  | fire o lenient =>
      simp only [perform]
      rw [fire_exchange]
      split
      · exact ⟨n, _, taken, acts', laid'.symm⟩
      · exact ⟨session_of_after laid, .inl rfl⟩
  | stall =>
      rw [perform, Layered, stage]
      exact ⟨n, before, taken, acts, laid⟩
  | acceptSubprotocol | customize | edit | sendError | appendHeader | note | call | pause =>
      exact ⟨n, _, taken, acts', laid'.symm⟩

theorem layered_judge (h : Hub) (matched : Path.Match) {finish : Finish}
    (session : x.response.session = none) (laid : finish = .fail .alreadyCompleted ∨ ∃ n,
      c.TakesRequest x.request n ∧ x.response = .after n.config (n.creator x.request).acts) :
    (x.judge h matched finish).2.Layered c (x.judge h matched finish).1 := by
  cases finish with
  | accept endpoint =>
      obtain ⟨n, taken, policy⟩ := laid.resolve_left (by simp)
      rw [judge]
      split
      · exact layered_of_ended rfl session
      · have new := Hub.session?_create h matched x.response.config x.response.subprotocol endpoint
          h.nextKey
        rw [if_pos rfl] at new
        exact ⟨session, n, _, _, taken, policy, new, rfl, rfl⟩
  | decline =>
      simp only [judge, conclude, fire_exchange]
      split
      · exact layered_of_ended rfl session
      · exact layered_of_ended rfl session
  | fail e =>
      rw [judge, failWith_exchange]
      exact layered_of_ended rfl session
  | panic payload =>
      rw [judge, failWith_exchange]
      exact layered_of_ended rfl session

theorem layered_step (h : Hub) (layered : x.Layered c h) :
    (x.step c h).2.Layered c (x.step c h).1 := by
  obtain ⟨request, response, completion, stage⟩ := x
  cases stage with
  | arrived =>
      obtain rfl : response = {} := layered
      rw [step]
      dsimp only
      cases resolved : c.resolve request.path with
      | none => exact layered_of_ended rfl rfl
      | some taken => exact ⟨taken.1, [], ⟨taken.2, resolved, rfl⟩, rfl, rfl⟩
  | creating matched acts finish =>
      obtain ⟨n, before, taken, acts_eq, laid⟩ := layered
      cases acts with
      | nil =>
          rw [List.append_nil] at acts_eq
          subst acts_eq
          exact ⟨session_of_after laid, .inr ⟨n, taken, laid⟩⟩
      | cons a rest => exact layered_perform h matched rfl taken acts_eq laid _
  | calling matched calls acts finish =>
      cases calls with
      | nil | cons => exact layered
  | created matched finish => exact layered_judge h matched layered.1 layered.2
  | opening key calls =>
      obtain ⟨session, shapes⟩ := layered
      cases calls with
      | nil =>
          simp only [step, conclude, fire_exchange]
          rintro other ⟨rfl⟩
          exact shapes.later (keepsSessions_of_sessions (undisturbed_fire h _ .succeeded).sessions)
      | cons call calls => exact ⟨session, shapes.later (Hub.keepsSessions_step h call)⟩
  | finished | dropped => exact layered

theorem layered_abandon (h : Hub) (layered : x.Layered c h) :
    (x.abandon h).2.Layered c (x.abandon h).1 := by
  obtain ⟨request, response, completion, stage⟩ := x
  cases stage with
  | arrived =>
      obtain rfl : response = {} := layered
      exact layered_of_ended rfl rfl
  | creating matched acts finish =>
      obtain ⟨_, _, -, -, laid⟩ := layered
      have session : response.session = none := session_of_after laid
      simp only [abandon, fire_exchange]
      split
      · exact layered_of_ended rfl session
      · exact layered_of_ended rfl session
  | calling | created | opening | finished | dropped => exact layered

theorem layered_report (h : Hub) (layered : x.Layered c h) (o : Outcome) :
    (x.fire h o).2.1.Layered c (x.fire h o).1 := by
  rw [fire_exchange]
  exact layered.later (keepsSessions_of_sessions (undisturbed_fire h x o).sessions)

/-! ### What turns leave of the other sessions -/

theorem keepsSessions_judge (h : Hub) (x : Exchange) (matched : Path.Match) (finish : Finish) :
    h.KeepsSessions (x.judge h matched finish).1 := by
  cases finish with
  | accept endpoint =>
      rw [judge]
      split
      · exact keepsSessions_of_sessions rfl
      · have made := Hub.keepsSessions_create h matched x.response.config x.response.subprotocol
          endpoint
        exact made.trans (keepsSessions_of_sessions rfl)
  | decline =>
      rw [judge]
      dsimp only
      split
      · exact keepsSessions_of_sessions rfl
      · exact keepsSessions_of_sessions (undisturbed_fire _ x .succeeded).sessions
  | fail e => exact keepsSessions_of_sessions (undisturbed_failWith h x (.creator e)).sessions
  | panic payload =>
      exact keepsSessions_of_sessions
        (undisturbed_failWith h x (.panicked payload.message)).sessions

theorem keepsSessions_step (c : Container) (h : Hub) (x : Exchange) :
    h.KeepsSessions (x.step c h).1 := by
  obtain ⟨request, response, completion, stage⟩ := x
  cases stage with
  | arrived =>
      rw [step]
      dsimp only
      split
      · exact keepsSessions_of_sessions rfl
      · exact keepsSessions_of_sessions rfl
  | creating matched acts finish =>
      cases acts with
      | nil => exact keepsSessions_of_sessions rfl
      | cons a rest =>
          exact keepsSessions_of_sessions (perform_hub h matched rest finish a rfl).1.sessions
  | calling matched calls acts finish =>
      cases calls with
      | nil => exact keepsSessions_of_sessions rfl
      | cons call calls => exact Hub.keepsSessions_step h call
  | created matched finish => exact keepsSessions_judge h _ matched finish
  | opening key calls =>
      cases calls with
      | nil => exact keepsSessions_of_sessions (undisturbed_fire h _ .succeeded).sessions
      | cons call calls => exact Hub.keepsSessions_step h call
  | finished | dropped => exact keepsSessions_of_sessions rfl

theorem keepsSessions_abandon (h : Hub) (x : Exchange) : h.KeepsSessions (x.abandon h).1 := by
  obtain ⟨request, response, completion, stage⟩ := x
  cases stage with
  | creating matched acts finish =>
      rw [abandon]
      dsimp only
      split
      · exact keepsSessions_of_sessions rfl
      · exact keepsSessions_of_sessions (undisturbed_fire _ _ (.failed .cancelled)).sessions
  | arrived | calling | created | opening | finished | dropped =>
      exact keepsSessions_of_sessions rfl

end Exchange

/-! ### A container at work -/

/-- A container that takes requests, next to everything else that uses its hub. -/
structure Service where
  container : Container
  hub : Hub
  exchanges : List Exchange := []

namespace Service

inductive Event where
  | arrive (request : Request) (completion : Completion)
  | step (i : Nat)
  | drop (i : Nat)
  | report (i : Nat) (o : Outcome)
  | elsewhere (d : Deed)

def turn (s : Service) (i : Nat) (t : Turn) : Service :=
  let next := turnAmong s.container s.hub s.exchanges i t
  { s with hub := next.1, exchanges := next.2 }

def next (s : Service) : Event → Service
  | .arrive request completion => { s with exchanges := s.exchanges ++ [{ request, completion }] }
  | .step i => s.turn i .step
  | .drop i => s.turn i .drop
  | .report i o => s.turn i (.report o)
  | .elsewhere d => { s with hub := d.result s.hub }

def run (s : Service) (events : List Event) : Service := events.foldl next s

/-- The policy of every exchange is laid out as far as the exchange is. -/
def Sound (s : Service) : Prop := ∀ x ∈ s.exchanges, x.Layered s.container s.hub

variable {s : Service}

theorem Sound.turn (sound : s.Sound) (i : Nat) {t : Turn}
    (layered : ∀ x ∈ s.exchanges, (x.turn s.container s.hub t).2.Layered s.container
      (x.turn s.container s.hub t).1)
    (kept : ∀ x : Exchange, s.hub.KeepsSessions (x.turn s.container s.hub t).1) :
    (s.turn i t).Sound := by
  rw [Service.turn, turnAmong]
  cases there : s.exchanges[i]? with
  | none => exact sound
  | some x =>
      intro y among
      -- The turn moves one exchange; of the others it touches no session's policy.
      rcases List.mem_or_eq_of_mem_set among with old | rfl
      · exact (sound y old).later (kept x)
      · exact layered x (List.mem_of_getElem? there)

theorem Sound.next (sound : s.Sound) (e : Event) : (s.next e).Sound := by
  cases e with
  | arrive request completion =>
      intro x among
      rcases List.mem_append.mp among with old | new
      · exact sound x old
      · obtain rfl := List.mem_singleton.mp new
        rfl
  | step i =>
      exact sound.turn i (fun x among => x.layered_step s.hub (sound x among))
        fun x => x.keepsSessions_step s.container s.hub
  | drop i =>
      exact sound.turn i (fun x among => x.layered_abandon s.hub (sound x among))
        fun x => x.keepsSessions_abandon s.hub
  | report i o =>
      exact sound.turn i (fun x among => x.layered_report s.hub (sound x among) o)
        fun x => keepsSessions_of_sessions (x.undisturbed_fire s.hub o).sessions
  | elsewhere d => exact fun x among => (sound x among).later (d.keepsSessions s.hub)

theorem container_next (s : Service) (e : Event) : (s.next e).container = s.container := by
  cases e with
  | arrive | step | drop | report | elsewhere => rfl

theorem container_run (s : Service) (events : List Event) :
    (s.run events).container = s.container := by
  induction events generalizing s with
  | nil => rfl
  | cons e rest ih => exact (ih (s.next e)).trans (s.container_next e)

theorem Sound.run (sound : s.Sound) (events : List Event) : (s.run events).Sound := by
  induction events generalizing s with
  | nil => exact sound
  | cons e rest ih => exact ih (sound.next e)

end Service

/-- Policies in layers. Whatever is done to a builder, and whatever happens to the container that
comes of it, a session that an exchange establishes is under a policy that holds in each field what
the creator wrote last in that exchange, or else the override of the mapping, or else the default at
the moment when the mapping was added. The container and its mappings stay as they were built. -/
theorem policies_are_layered (steps : List Setup) (h : Hub) (events : List Service.Event) :
    let c := ({} : Container).setUp steps
    let s := (Service.mk c h []).run events
    s.container = c ∧ c.defaults = Container.defaultsAfter {} steps
      ∧ (∀ spec n, c.negotiators.get? spec = some n ↔ ∃ creator o defaults,
        ({} : Container).Adds steps spec creator o defaults
          ∧ n = ⟨spec, creator, defaults.customized o⟩)
      ∧ ∀ x ∈ s.exchanges, ∀ key, x.Establishes key →
        ∃ spec creator o defaults matched t, ({} : Container).Adds steps spec creator o defaults
          ∧ c.resolve x.request.path = some (⟨spec, creator, defaults.customized o⟩, matched)
          ∧ x.request.matched = some matched ∧ s.hub.session? key = some t
          ∧ ∀ field, t.config.get field
            = (lastWritten? field (defaults.customized o) (creator x.request).acts).getD
                ((o.get? field).getD (defaults.get field)) := by
  intro c s
  have unchanged : s.container = c := Service.container_run _ events
  have mappings (spec : Spec) (n : Negotiator) : c.negotiators.get? spec = some n
      ↔ ∃ creator o defaults, ({} : Container).Adds steps spec creator o defaults
        ∧ n = ⟨spec, creator, defaults.customized o⟩ := Container.get?_setUp_iff rfl
  refine ⟨unchanged, Container.defaults_setUp _ steps, mappings, ?_⟩
  intro x among key established
  have sound : s.Sound := by
    have none_yet : (Service.mk c h []).Sound := fun x among => absurd among List.not_mem_nil
    exact none_yet.run events
  obtain ⟨n, t, ⟨matched, resolved, carried⟩, found, policy⟩ :=
    (sound x among).governs established
  rw [unchanged] at resolved
  have ordered : c.negotiators.Ordered := Container.ordered_setUp Path.Table.ordered_empty steps
  obtain ⟨spec, taken, -⟩ := ordered.resolve_eq_some resolved
  obtain ⟨creator, o, defaults, added, rfl⟩ := (mappings spec n).mp taken
  exact ⟨spec, creator, o, defaults, matched, t, added, resolved, carried, found,
    eq_layAll_iff.mp policy⟩

def tightening : Creator := fun _ =>
  { acts := [.customize { maxTextMessageSize := some 200 },
      .edit fun c => { c with role := .client },
      .customize { maxTextMessageSize := some 100 }]
    finish := .accept .echo }

/-- A mapping, a second one for its path, an edit of the defaults and one more mapping. -/
def tightenedSteps : List Setup :=
  [.withDefaults { maxFrameSize := 1024 },
    .addMapping "/a" tightening { idleTimeoutSecs := some 5, maxTextMessageSize := some 300 },
    .addMapping "/a" .echo { idleTimeoutSecs := some 9 },
    .editDefaults fun d => { d with maxFrameSize := 512 },
    .addMapping "/b" .echo { outputBufferSize := some 64 }]

/-- Two exchanges in turns: one is done, the other is still opening its session. -/
theorem policies_are_layered_in_two_exchanges :
    let events : List Service.Event := [.arrive { path := "/a" } {}, .step 0, .step 0,
      .arrive { path := "/b" } {}, .step 0, .step 1, .step 0, .step 1, .step 0, .step 0, .step 0,
      .step 0, .step 0, .step 0, .step 0, .step 0, .step 1, .report 1 .succeeded,
      .elsewhere (.wait 1)]
    let s := (Service.mk (({} : Container).setUp tightenedSteps) {} []).run events
    ∃ t u, s.hub.session? 0 = some t ∧ s.hub.session? 1 = some u
      ∧ t.config = { idleTimeoutSecs := 5, maxTextMessageSize := 100, maxFrameSize := 1024,
                     role := .client }
      ∧ u.config = { outputBufferSize := 64, maxFrameSize := 512 } := by
  intro events s
  obtain ⟨-, -, -, layered⟩ := policies_are_layered tightenedSteps {} events
  have policy {n : Negotiator} {matched : Path.Match} (x : Exchange) (among : x ∈ s.exchanges)
      (key : SessionKey) (established : x.Establishes key)
      (resolved : (({} : Container).setUp tightenedSteps).resolve x.request.path
        = some (n, matched)) : ∃ t, s.hub.session? key = some t
          ∧ t.config = layAll n.config (n.creator x.request).acts := by
    obtain ⟨spec, creator, o, defaults, m, t, -, took, -, found, fields⟩ :=
      layered x among key established
    obtain ⟨rfl, -⟩ := Prod.mk.inj (Option.some.inj (resolved.symm.trans took))
    exact ⟨t, found, eq_layAll_iff.mpr fields⟩
  obtain ⟨t, first, tight⟩ := policy _ (List.mem_of_getElem? (i := 0) rfl) 0 (.inl rfl) rfl
  obtain ⟨u, second, loose⟩ := policy _ (List.mem_of_getElem? (i := 1) rfl) 1 (.inr ⟨_, rfl⟩) rfl
  exact ⟨t, u, first, second, tight, loose⟩

end Gateway.Upgrade
