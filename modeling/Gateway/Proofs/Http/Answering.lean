import Gateway.Http.Upgrade
import Gateway.Proofs.Upgrade.Course

/-!
The answer to a request, next to what it leaves behind. A request gets a session only when it is an
upgrade, a mapping takes it, and the creator ends with an endpoint without having reported on the
completion. That session becomes live. No other session comes or goes, unless the creator or
somebody who listens calls for it. Main statement: `answered_by_verdict`.
-/
namespace Gateway.Http

open Hub (Leads Wanted WantedOut)
open Upgrade (Container Negotiator Outcome Plan Rejection callsOf reportsOf)

def Handling.session? : Handling → Option SessionKey
  | .answered (.switch _ key _) => some key
  | _ => none

def exchangeFor (request : Request) : Upgrade.Exchange :=
  { request := .ofParts request.target request.headers }

def planFor (n : Negotiator) (matched : Path.Match) (request : Request) : Plan :=
  n.creator { Upgrade.Request.ofParts request.target request.headers with matched := some matched }

/-- The status of a rejection: the one that the creator sent, if a response can have it. -/
def statusFor : Option Rejection → Nat
  | none => 503
  | some r => if 100 ≤ r.status ∧ r.status ≤ 999 then r.status else 503

def refusalFor (left : Upgrade.Response) : Response :=
  let plain := Response.plain (statusFor left.rejection)
    ((left.rejection.map Rejection.reason).getD "WebSocket upgrade declined")
  { plain with headers := plain.headers.extend left.headers }

/-- What becomes of a request: what its creator calls on the registry, the hub after it, and the
answer. -/
inductive Verdict (c : Container) (h : Hub) (request : Request) : List Call → Hub × Handling → Prop
  | unmapped {k : Hub} : c.resolve request.path = none →
      Verdict c h request [] (k, .answered (.respond (.plain 404 "No WebSocket mapping for path")))
  | noUpgrade {k : Hub} {why : NotUpgrade} : c.resolve request.path ≠ none →
      request.notUpgrade? = some why →
      Verdict c h request [] (k, .answered (.respond why.response))
  | stalls {k : Hub} {x : Upgrade.Exchange} {n : Negotiator} {matched : Path.Match}
      {done rest : List Upgrade.CreatorAct} :
      request.notUpgrade? = none → c.resolve request.path = some (n, matched) →
      (planFor n matched request).course = none →
      (planFor n matched request).acts = done ++ .stall :: rest →
      Verdict c h request (callsOf done) (k, .stalled x)
  | fails {k : Hub} {n : Negotiator} {matched : Path.Match} {done : List Upgrade.CreatorAct}
      {last : Upgrade.Finish} {e : Upgrade.NegotiationError} :
      request.notUpgrade? = none → c.resolve request.path = some (n, matched) →
      (planFor n matched request).course = some (done, last) →
      (reportsOf done).head?.getD last.outcome = .failed e →
      Verdict c h request (callsOf done)
        (k, .answered (.respond (.plain 500 "WebSocket negotiation failed")))
  /-- The completion ends well, and there is no endpoint, or not one that counts. -/
  | declines {k : Hub} {n : Negotiator} {matched : Path.Match} {done : List Upgrade.CreatorAct}
      {last : Upgrade.Finish} :
      request.notUpgrade? = none → c.resolve request.path = some (n, matched) →
      (planFor n matched request).course = some (done, last) →
      (reportsOf done).head?.getD last.outcome = .succeeded →
      (∀ endpoint, last = .accept endpoint → reportsOf done ≠ []) →
      Verdict c h request (callsOf done)
        (k, .answered (.respond (refusalFor (.after n.config done))))
  | upgrades {k : Hub} {n : Negotiator} {matched : Path.Match} {done : List Upgrade.CreatorAct}
      {endpoint : Session.Endpoint} {s : Session} {left : Upgrade.Response} :
      request.notUpgrade? = none → c.resolve request.path = some (n, matched) →
      (planFor n matched request).course = some (done, .accept endpoint) → reportsOf done = [] →
      left = .after n.config done →
      h.session? h.nextKey = none → h.nextKey ∉ h.registry.live →
      k.session? h.nextKey = some s →
      s.asMade = { id := .made h.nextKey, matched, config := left.config,
                   subprotocol := left.subprotocol, endpoint } →
      Verdict c h request (callsOf done) (k, .answered (.switch
        (switching request left.subprotocol left.headers) h.nextKey (.ofConfig s.config)))

variable {c : Container} {h k : Hub} {request : Request}

/-! ### Ends of exchanges -/

theorem calls_drop {completion : Upgrade.Completion} {reports : List Outcome} {o : Outcome}
    (settled : completion.Settled reports o) :
    completion.drop.calls = [reports.head?.getD o] := by
  have kept : completion.cancelsOnDrop = false := by
    rw [Upgrade.Completion.cancelsOnDrop, settled.2, Bool.and_false]
  rw [Upgrade.Completion.drop, kept]
  exact settled.1

theorem declined_eq (h : Hub) (id : String) (left : Upgrade.Response) :
    h.Undisturbed (declined h id left).1 ∧ (declined h id left).2 = .respond (refusalFor left) := by
  rw [declined, refusalFor]
  cases left.rejection with
  | none => exact ⟨.log h _ _ _, rfl⟩
  | some r => exact ⟨.log h _ _ _, rfl⟩

theorem answerExchange_quiet (h : Hub) (id : String) (request : Request) {x : Upgrade.Exchange}
    {reports : List Outcome} {o : Outcome} (ended : x.stage = .finished true)
    (none_made : x.response.session = none) (settled : x.completion.Settled reports o) :
    h.Undisturbed (answerExchange h id request x).1
      ∧ (answerExchange h id request x).2 = .respond (match reports.head?.getD o with
        | .failed _ => .plain 500 "WebSocket negotiation failed"
        | .succeeded => refusalFor x.response) := by
  have handled : x.handled = true := by rw [Upgrade.Exchange.handled, ended]
  have first : x.completion.drop.calls.head? = some (reports.head?.getD o) := by
    rw [calls_drop settled]
    rfl
  rw [answerExchange, handled, if_neg (by decide), first, none_made]
  cases reports.head?.getD o with
  | failed e => exact ⟨.log h _ _ _, rfl⟩
  | succeeded => exact declined_eq h id x.response

theorem answerExchange_switch (h : Hub) (id : String) (request : Request) {x : Upgrade.Exchange}
    {key : SessionKey} {s : Session} (ended : x.stage = .finished true)
    (made : x.response.session = some key) (found : h.session? key = some s)
    (settled : x.completion.Settled [] .succeeded) : answerExchange h id request x
      = (h, .switch (switching request s.subprotocol x.response.headers) key
          (.ofConfig s.config)) := by
  have handled : x.handled = true := by rw [Upgrade.Exchange.handled, ended]
  have first : x.completion.drop.calls.head? = some .succeeded := by
    rw [calls_drop settled]
    rfl
  rw [answerExchange, handled, if_neg (by decide), first, made]
  dsimp only
  rw [found]
  rfl

/-! ### Requests -/

/-- A verdict, and the account of the live sessions that goes with it. -/
def Settled (c : Container) (h : Hub) (request : Request) (result : Hub × Handling) : Prop :=
  ∃ called past, Verdict c h request called result
    ∧ h.Accounted called result.2.session? past result.1

theorem answer_noUpgrade (c : Container) (h : Hub) (id : String) {why : NotUpgrade}
    (plain : request.notUpgrade? = some why) : Settled c h request (answer c h id request) := by
  rw [answer, plain]
  dsimp only
  rw [answerPlain]
  cases taken : c.resolve request.path with
  | none =>
      exact ⟨[], [], .unmapped taken, (Leads.start.quiet (.log h _ _ _)).accounted⟩
  | some taker =>
      exact ⟨[], [], .noUpgrade (by simp [taken]) plain,
        (Leads.start.quiet (.log h _ _ _)).accounted⟩

theorem answer_unmapped (h : Hub) (id : String) (upgrade : request.notUpgrade? = none)
    (none_takes : c.resolve request.path = none) :
    Settled c h request (answer c h id request) := by
  have ended := Upgrade.Exchange.run_unmapped (x := exchangeFor request) rfl none_takes h
  rw [answer, upgrade]
  dsimp only
  rw [answerUpgrade, ← exchangeFor, ended]
  refine ⟨[], [], .unmapped none_takes, Leads.accounted ?_⟩
  exact Leads.start.quiet (((Hub.Undisturbed.log h _ _ _).trans (.log _ _ _ _)).trans (.note _ rfl))

theorem answer_of_ended {id : String} {x : Upgrade.Exchange}
    (upgrade : request.notUpgrade? = none)
    (ran : (exchangeFor request).run c h = (k, x)) (ended : x.hasEnded = true) :
    answer c h id request
      = ((answerExchange k id request x).1, .answered (answerExchange k id request x).2) := by
  rw [answer, upgrade]
  dsimp only
  rw [answerUpgrade, ← exchangeFor, ran]
  dsimp only
  rw [if_pos ended]

theorem answer_of_going {id : String} {x : Upgrade.Exchange}
    (upgrade : request.notUpgrade? = none) (ran : (exchangeFor request).run c h = (k, x))
    (going : x.hasEnded = false) : answer c h id request = (k, .stalled x) := by
  rw [answer, upgrade]
  dsimp only
  rw [answerUpgrade, ← exchangeFor, ran]
  dsimp only
  rw [if_neg (by simp [going])]

/-- The exchange of a request that a mapping takes goes as its creator has planned. -/
theorem exchange_course {n : Negotiator} {matched : Path.Match}
    (taken : c.resolve request.path = some (n, matched)) :
    match (planFor n matched request).course with
    | none => ∃ done rest past, (planFor n matched request).acts = done ++ .stall :: rest
        ∧ ((exchangeFor request).run c h).2.hasEnded = false
        ∧ h.Leads (callsOf done) [] past ((exchangeFor request).run c h).1
    | some (done, last) => ∃ (k : Hub) (y : Upgrade.Exchange) (past : List (Hub × Call)),
        (exchangeFor request).run c h = y.run c k ∧ h.Leads (callsOf done) [] past k
        ∧ y.Ended n.config matched done last := by
  obtain ⟨x, begins, working⟩ := Upgrade.Exchange.run_mapped
    (Upgrade.Request.ofParts request.target request.headers) taken h
  have begun : h.Leads (callsOf []) [] [] h := .start
  have ran := working.run c begun
  rw [exchangeFor, begins]
  exact ran

theorem answer_quiet (id : String) {n : Negotiator} {matched : Path.Match}
    {done : List Upgrade.CreatorAct} {last : Upgrade.Finish} {x : Upgrade.Exchange}
    {past : List (Hub × Call)} (upgrade : request.notUpgrade? = none)
    (taken : c.resolve request.path = some (n, matched))
    (course : (planFor n matched request).course = some (done, last))
    (ran : (exchangeFor request).run c h = x.run c k) (leads : h.Leads (callsOf done) [] past k)
    (ended : x.Ended n.config matched done last)
    (no_session : ∀ endpoint, last = .accept endpoint → reportsOf done ≠ []) :
    Settled c h request (answer c h id request) := by
  obtain ⟨still, stage, response, settled⟩ := ended.run_quiet no_session c k
  have concluded : (x.run c k).2.hasEnded = true := by rw [Upgrade.Exchange.hasEnded, stage]
  have none_made : (x.run c k).2.response.session = none := by rw [response]; rfl
  obtain ⟨last_still, answered⟩ :=
    answerExchange_quiet (x.run c k).1 id request stage none_made settled
  rw [response] at answered
  rw [answer_of_ended upgrade ran concluded, answered]
  have accounted := ((leads.quiet still).quiet last_still).accounted
  cases outcome : (reportsOf done).head?.getD last.outcome with
  | failed e => exact ⟨_, past, .fails upgrade taken course outcome, accounted⟩
  | succeeded => exact ⟨_, past, .declines upgrade taken course outcome no_session, accounted⟩

/-- How a creator's endpoint that counts comes to its session. -/
theorem answer_switch (id : String) {n : Negotiator} {matched : Path.Match}
    {done : List Upgrade.CreatorAct} {endpoint : Session.Endpoint} {x : Upgrade.Exchange}
    {past : List (Hub × Call)} (upgrade : request.notUpgrade? = none)
    (ran : (exchangeFor request).run c h = x.run c k) (leads : h.Leads (callsOf done) [] past k)
    (ended : x.Ended n.config matched done (.accept endpoint)) (unreported : reportsOf done = []) :
    let left := Upgrade.Response.after n.config done
    ∃ made l s, (k.create matched left.config left.subprotocol endpoint).1.Undisturbed made
      ∧ (made.run [.openSession h.nextKey]).Undisturbed l ∧ l.session? h.nextKey = some s
      ∧ s.asMade = { id := .made h.nextKey, matched, config := left.config,
                     subprotocol := left.subprotocol, endpoint }
      ∧ answer c h id request = (l, .answered (.switch
        (switching request left.subprotocol left.headers) h.nextKey (.ofConfig s.config))) := by
  intro left
  obtain ⟨made, created, opened, stage, response, settled⟩ := ended.run_accept unreported c k
  obtain ⟨next, -⟩ := leads.opens matched left.config left.subprotocol endpoint created
  rw [next] at opened response
  rw [unreported] at settled
  have as_made := Hub.asMade_run made [.openSession h.nextKey] h.nextKey
  rw [Hub.session?_of_sessions created.sessions, Hub.session?_create, if_pos next.symm,
    ← Hub.session?_of_sessions opened.sessions, next] at as_made
  obtain ⟨s, now, as_made⟩ := Option.map_eq_some_iff.mp as_made
  have concluded : (x.run c k).2.hasEnded = true := by rw [Upgrade.Exchange.hasEnded, stage]
  have switched :=
    answerExchange_switch (x.run c k).1 id request stage (by rw [response]) now settled
  have kept : s.subprotocol = left.subprotocol := congrArg Session.subprotocol as_made
  rw [response, kept] at switched
  refine ⟨made, _, s, created, opened, now, as_made, ?_⟩
  rw [answer_of_ended upgrade ran concluded, switched]

theorem answer_upgrades (id : String) (made : h.LiveMade) {n : Negotiator} {matched : Path.Match}
    {done : List Upgrade.CreatorAct} {endpoint : Session.Endpoint} {x : Upgrade.Exchange}
    {past : List (Hub × Call)} (upgrade : request.notUpgrade? = none)
    (taken : c.resolve request.path = some (n, matched))
    (course : (planFor n matched request).course = some (done, .accept endpoint))
    (ran : (exchangeFor request).run c h = x.run c k) (leads : h.Leads (callsOf done) [] past k)
    (ended : x.Ended n.config matched done (.accept endpoint)) (unreported : reportsOf done = []) :
    Settled c h request (answer c h id request) := by
  obtain ⟨l, last, s, created, opened, now, as_made, switched⟩ :=
    answer_switch id upgrade ran leads ended unreported
  obtain ⟨-, -, accounted⟩ := leads.opens matched _ _ endpoint created
  have unmade : h.session? h.nextKey = none := Hub.session?_nextKey h
  have out : h.nextKey ∉ h.registry.live := fun among => made _ among unmade
  rw [switched]
  exact ⟨_, _, .upgrades upgrade taken course unreported rfl unmade out now as_made,
    accounted.later opened⟩

theorem answer_mapped (id : String) (made : h.LiveMade) {n : Negotiator} {matched : Path.Match}
    (upgrade : request.notUpgrade? = none) (taken : c.resolve request.path = some (n, matched)) :
    Settled c h request (answer c h id request) := by
  have ran := exchange_course (h := h) taken
  cases course : (planFor n matched request).course with
  | none =>
      rw [course] at ran
      obtain ⟨done, rest, past, split, going, leads⟩ := ran
      rw [answer_of_going upgrade rfl going]
      exact ⟨_, past, .stalls upgrade taken course split, leads.accounted⟩
  | some ending =>
      obtain ⟨done, last⟩ := ending
      rw [course] at ran
      obtain ⟨k, y, past, ran, leads, ended⟩ := ran
      by_cases no_session : ∀ endpoint, last = .accept endpoint → reportsOf done ≠ []
      · exact answer_quiet id upgrade taken course ran leads ended no_session
      · obtain ⟨endpoint, rfl, unreported⟩ :
            ∃ endpoint, last = .accept endpoint ∧ reportsOf done = [] := by
          simpa using no_session
        exact answer_upgrades id made upgrade taken course ran leads ended unreported

theorem answer_settled (id : String) (made : h.LiveMade) (request : Request) :
    Settled c h request (answer c h id request) := by
  cases plain : request.notUpgrade? with
  | some why => exact answer_noUpgrade c h id plain
  | none =>
      cases taken : c.resolve request.path with
      | none => exact answer_unmapped h id plain taken
      | some taker => exact answer_mapped id made plain taken

/-- Without an upgrade, or without a mapping, no creator has a say. -/
theorem answer_congr {other : Container} (h : Hub) (id : String)
    (same : (other.resolve request.path).isSome = (c.resolve request.path).isSome)
    (early : c.resolve request.path = none ∨ request.notUpgrade? ≠ none) :
    answer other h id request = answer c h id request := by
  have absent (here : c.resolve request.path = none) : other.resolve request.path = none := by
    rwa [here, Option.isSome_none, Option.isSome_eq_false_iff, Option.isNone_iff_eq_none] at same
  rw [answer, answer]
  cases plain : request.notUpgrade? with
  | some why =>
      dsimp only
      rw [answerPlain, answerPlain]
      cases here : c.resolve request.path with
      | none =>
          rw [absent here]
      | some taker =>
          obtain ⟨there, found⟩ := Option.isSome_iff_exists.mp (same.trans (by rw [here]; rfl))
          rw [found]
  | none =>
      have here : c.resolve request.path = none := early.resolve_right (absurd plain)
      dsimp only
      rw [answerUpgrade, answerUpgrade, ← exchangeFor,
        Upgrade.Exchange.run_unmapped (x := exchangeFor request) rfl here,
        Upgrade.Exchange.run_unmapped (x := exchangeFor request) rfl (absent here)]

/-! ### Verdicts -/

variable {result : Hub × Handling} {called : List Call} {past : List (Hub × Call)}

theorem Verdict.switch_iff (verdict : Verdict c h request called result) :
    (∃ r key settings, result.2 = .answered (.switch r key settings))
      ↔ request.notUpgrade? = none ∧ ∃ n matched done endpoint,
        c.resolve request.path = some (n, matched)
        ∧ (planFor n matched request).course = some (done, .accept endpoint)
        ∧ reportsOf done = [] := by
  have refused {n : Negotiator} {matched : Path.Match} {ending : Option (_ × Upgrade.Finish)}
      (taken : c.resolve request.path = some (n, matched))
      (course : (planFor n matched request).course = ending)
      (other : ∀ done endpoint, ending = some (done, .accept endpoint) → reportsOf done ≠ []) :
      ¬ ∃ n matched done endpoint, c.resolve request.path = some (n, matched)
        ∧ (planFor n matched request).course = some (done, .accept endpoint)
        ∧ reportsOf done = [] := by
    rintro ⟨n', matched', done, endpoint, taken', course', unreported⟩
    obtain ⟨rfl, rfl⟩ : n = n' ∧ matched = matched' := by
      rw [taken, Option.some.injEq, Prod.mk.injEq] at taken'
      exact taken'
    exact other done endpoint (course.symm.trans course') unreported
  cases verdict with
  | unmapped none_takes => simp [none_takes]
  | noUpgrade mapped plain => simp [plain]
  | stalls upgrade taken course =>
      have no_end := refused taken course (by simp)
      exact iff_of_false (by simp) fun accepted => no_end accepted.2
  | @fails k n matched done last e upgrade taken course outcome =>
      have no_end := refused taken course fun done' endpoint same unreported => by
        obtain ⟨rfl, rfl⟩ : done = done' ∧ last = .accept endpoint := by simpa using same
        rw [unreported] at outcome
        exact absurd outcome (by simp [Upgrade.Finish.outcome])
      exact iff_of_false (by simp) fun accepted => no_end accepted.2
  | declines upgrade taken course outcome no_session =>
      have no_end := refused taken course fun done' endpoint same => by
        obtain ⟨rfl, last⟩ := Prod.mk.inj (Option.some.inj same)
        exact no_session endpoint last
      exact iff_of_false (by simp) fun accepted => no_end accepted.2
  | upgrades upgrade taken course unreported =>
      exact ⟨fun _ => ⟨upgrade, _, _, _, _, taken, course, unreported⟩, fun _ => ⟨_, _, _, rfl⟩⟩

theorem Verdict.switched (verdict : Verdict c h request called result) {r : Response}
    {key : SessionKey} {settings : Settings}
    (switched : result.2 = .answered (.switch r key settings)) : key = h.nextKey := by
  cases verdict with
  | unmapped | noUpgrade | stalls | fails | declines => exact absurd switched (by simp)
  | upgrades =>
      obtain ⟨-, rfl, -⟩ := Answer.switch.inj (Handling.answered.inj switched)
      rfl

theorem Verdict.uncalled (verdict : Verdict c h request called result)
    (silent : ∀ n matched, c.resolve request.path = some (n, matched) →
      callsOf (planFor n matched request).acts = []) : called = [] := by
  have begun {n : Negotiator} {matched : Path.Match} {done : List Upgrade.CreatorAct}
      (taken : c.resolve request.path = some (n, matched))
      (begins : done <+: (planFor n matched request).acts) : callsOf done = [] := by
    obtain ⟨rest, split⟩ := begins
    have none_called := silent n matched taken
    rw [← split, callsOf, List.filterMap_append, List.append_eq_nil_iff] at none_called
    exact none_called.1
  cases verdict with
  | unmapped | noUpgrade => rfl
  | stalls _ taken _ split => exact begun taken (split ▸ List.prefix_append _ _)
  | fails _ taken course | declines _ taken course | upgrades _ taken course =>
      exact begun taken (Upgrade.goOn_prefix course)

/-- What becomes of any request. Only an upgrade request that a mapping takes, and whose creator
ends with an endpoint and has reported nothing, switches protocols. The live sessions are then those
of before and the new one; otherwise they are those of before. Apart from that, a session has come
or gone only if the creator called for it, or a listener did over what it heard. -/
theorem answered_by_verdict (c : Container) (h : Hub) (id : String) (request : Request)
    (made : h.LiveMade) :
    let result := answer c h id request
    (∃ called past, Verdict c h request called result
        ∧ h.Accounted called result.2.session? past result.1
        ∧ ∀ key, ¬ Wanted called past (.openSession key) → ¬ WantedOut called past key →
          (key ∈ result.1.registry.live
            ↔ key ∈ h.registry.live ∨ result.2.session? = some key))
      ∧ ((∀ l ∈ h.registry.listeners ++ h.cast, ∀ kind key, (l.reaction kind).calls key = []) →
          (∀ n matched, c.resolve request.path = some (n, matched) →
            callsOf (planFor n matched request).acts = []) →
          result.1.registry.live = h.registry.live ++ result.2.session?.toList)
      ∧ ((∃ r key settings, result.2 = .answered (.switch r key settings))
        ↔ request.notUpgrade? = none ∧ ∃ n matched done endpoint,
          c.resolve request.path = some (n, matched)
          ∧ (planFor n matched request).course = some (done, .accept endpoint)
          ∧ reportsOf done = [])
      ∧ (∀ other : Container,
          (other.resolve request.path).isSome = (c.resolve request.path).isSome →
          c.resolve request.path = none ∨ request.notUpgrade? ≠ none →
          answer other h id request = result)
      ∧ result.1.LiveMade := by
  intro result
  obtain ⟨called, past, verdict, accounted⟩ := answer_settled (c := c) id made request
  refine ⟨⟨called, past, verdict, accounted, fun key => accounted.mem_live_iff⟩, ?_,
    verdict.switch_iff, fun _ same early => answer_congr h id same early, accounted.liveMade made⟩
  intro silent quiet
  rw [verdict.uncalled quiet] at accounted
  exact accounted.live_of_silent silent

/-! ### An echo -/

def echoAt (path : String) : Container where
  negotiators := ⟨[(.exact path.toList, ⟨.exact path.toList, .echo, {}⟩)]⟩

def bareUpgrade (path : String) : Request where
  target := { path := path.toList }
  headers := ⟨[Response.field "connection" "upgrade", Response.field "upgrade" "websocket",
    Response.field "sec-websocket-version" "13", Response.field "sec-websocket-key" "key"]⟩

theorem bareUpgrade_offers_nothing : (Upgrade.Request.ofParts (bareUpgrade "/s").target
    (bareUpgrade "/s").headers).subprotocols = [] := by decide +kernel

def echoMapping : Negotiator := ⟨.exact "/s".toList, .echo, {}⟩

theorem echo_taken : ∃ matched,
    (echoAt "/s").resolve (bareUpgrade "/s").path = some (echoMapping, matched) := ⟨_, rfl⟩

theorem echo_plan (matched : Path.Match) : planFor echoMapping matched (bareUpgrade "/s")
    = { acts := [], finish := .accept .echo } := by
  simp only [planFor, echoMapping, Upgrade.Creator.echo, bareUpgrade_offers_nothing]
  rfl

/-- The echo gets its session, which is live from then on. -/
theorem answered_by_verdict_of_echo :
    ∃ r settings, (answer (echoAt "/s") {} "1" (bareUpgrade "/s")).2
        = .answered (.switch r 0 settings)
      ∧ (answer (echoAt "/s") {} "1" (bareUpgrade "/s")).1.registry.live = [0] := by
  obtain ⟨⟨called, past, verdict, -⟩, live, switches, -⟩ :=
    answered_by_verdict (echoAt "/s") {} "1" (bareUpgrade "/s") (List.forall_mem_nil _)
  obtain ⟨matched, taken⟩ := echo_taken
  have course : (planFor echoMapping matched (bareUpgrade "/s")).course
      = some ([], .accept .echo) := by
    rw [echo_plan]
    rfl
  obtain ⟨r, key, settings, switched⟩ :=
    switches.mpr ⟨by decide +kernel, _, _, _, _, taken, course, rfl⟩
  obtain rfl := verdict.switched switched
  have silent : ∀ n matched', (echoAt "/s").resolve (bareUpgrade "/s").path = some (n, matched') →
      callsOf (planFor n matched' (bareUpgrade "/s")).acts = [] := by
    intro n matched' taken'
    obtain ⟨rfl, rfl⟩ := Prod.mk.inj (Option.some.inj (taken.symm.trans taken'))
    rw [echo_plan]
    rfl
  refine ⟨r, settings, switched, (live (List.forall_mem_nil _) silent).trans ?_⟩
  rw [switched]
  rfl

/-- If a listener turns it away, the connection is switched all the same, to a session that is not
live. -/
theorem switched_without_gain :
    let closer : Session.Listener := { name := "closer", opened := .closeSession none }
    let h : Hub := { registry := { listeners := [closer] } }
    ∃ k r key settings, answer (echoAt "/s") h "1" (bareUpgrade "/s")
        = (k, .answered (.switch r key settings))
      ∧ k.registry.live = h.registry.live := by
  intro closer h
  obtain ⟨matched, taken⟩ := echo_taken
  have course := exchange_course (h := h) taken
  rw [echo_plan] at course
  obtain ⟨k, x, past, ran, leads, ended⟩ := course
  obtain ⟨made, l, s, created, opened, -, -, switched⟩ :=
    answer_switch "1" (by decide +kernel) ran leads ended rfl
  refine ⟨l, _, _, _, switched, ?_⟩
  have quiet : h.Undisturbed k := leads.undisturbed
  have phases (key : SessionKey) : made.phase key = if key = 0 then .created else .closed := by
    rw [Hub.phase_of_sessions created.sessions, Hub.phase, Hub.session?_create, Hub.nextKey,
      Hub.session?_of_sessions quiet.sessions, quiet.sessions]
    split
    · rename_i same
      exact (if_pos same).symm
    · rename_i apart
      exact (if_neg apart).symm
  have registry : made.registry = h.registry := created.registry.trans quiet.registry
  have alone : made.registry.listeners = [closer] := by rw [registry]
  have none_live : made.registry.live = [] := by rw [registry]
  have others (key : SessionKey) (apart : 0 ≠ key) : made.phase key ≠ .created := by
    rw [phases, if_neg apart.symm]
    exact Session.Phase.noConfusion
  rw [opened.registry]
  exact Hub.live_of_turned_away (phases 0) others alone rfl none_live

end Gateway.Http
