import Gateway.Proofs.Hub.Account
import Gateway.Proofs.Upgrade.Completing
import Gateway.Proofs.Upgrade.Layers
import Gateway.Upgrade.Run

/-!
The course of an exchange on its own. What a creator does is decided by its plan: how far it gets,
how it ends, what it leaves in the response and on the completion, and what it calls on the
registry. Until a session is opened, those calls are all that happens there.
-/
namespace Gateway

open Hub (Leads)

namespace Upgrade

/-! ### Plans -/

namespace CreatorAct

def report? : CreatorAct → Option Outcome
  | .fire o _ => some o
  | _ => none

def protocol? : CreatorAct → Option String
  | .acceptSubprotocol p => some p
  | _ => none

def rejection? : CreatorAct → Option Rejection
  | .sendError status reason => some ⟨status, reason⟩
  | _ => none

def header? : CreatorAct → Option Http.Field
  | .appendHeader field => some field
  | _ => none

def call? : CreatorAct → Option Call
  | .call c _ => some c
  | _ => none

theorem isEntry_of_call? (a : CreatorAct) {c : Call} (called : a.call? = some c) :
    c.isEntry = true := by
  cases a with
  | call c' entry =>
      obtain rfl := Option.some.inj called
      exact entry
  | _ => exact nomatch called

end CreatorAct

def reportsOf (acts : List CreatorAct) : List Outcome := acts.filterMap CreatorAct.report?

def callsOf (acts : List CreatorAct) : List Call := acts.filterMap CreatorAct.call?

/-- The response after acts, on a policy. Of what is said more than once, the last counts. -/
def Response.after (policy : Config.SessionConfig) (acts : List CreatorAct) : Response where
  config := layAll policy acts
  subprotocol := (acts.filterMap CreatorAct.protocol?).getLast?
  rejection := (acts.filterMap CreatorAct.rejection?).getLast?
  headers := ⟨acts.filterMap CreatorAct.header?⟩

/-- How a creator goes on after acts that are done: all that it does before it ends, and how it
ends. One that stalls never ends. One that reports a second time fails, unless the report is
lenient. -/
def goOn (finish : Finish) (done : List CreatorAct) :
    List CreatorAct → Option (List CreatorAct × Finish)
  | [] => some (done, finish)
  | .stall :: _ => none
  | .fire o lenient :: rest =>
    if reportsOf done = [] ∨ lenient then goOn finish (done ++ [.fire o lenient]) rest
    else some (done ++ [.fire o lenient], .fail .alreadyCompleted)
  | a :: rest => goOn finish (done ++ [a]) rest

def Plan.course (p : Plan) : Option (List CreatorAct × Finish) := goOn p.finish [] p.acts

variable {policy : Config.SessionConfig} {before : List CreatorAct}

theorem reportsOf_snoc (before : List CreatorAct) (a : CreatorAct) :
    reportsOf (before ++ [a]) = reportsOf before ++ a.report?.toList := by
  rw [reportsOf, List.filterMap_append, ← reportsOf]
  cases told : a.report? with
  | none => rw [List.filterMap_cons_none told, List.filterMap_nil, Option.toList_none]
  | some o => rw [List.filterMap_cons_some told, List.filterMap_nil, Option.toList_some]

theorem callsOf_snoc (before : List CreatorAct) (a : CreatorAct) :
    callsOf (before ++ [a]) = callsOf before ++ a.call?.toList := by
  rw [callsOf, List.filterMap_append, ← callsOf]
  cases called : a.call? with
  | none => rw [List.filterMap_cons_none called, List.filterMap_nil, Option.toList_none]
  | some c => rw [List.filterMap_cons_some called, List.filterMap_nil, Option.toList_some]

theorem after_snoc (policy : Config.SessionConfig) (before : List CreatorAct) (a : CreatorAct) :
    let r := Response.after policy before
    Response.after policy (before ++ [a]) = { r with
      config := a.laidOver r.config
      subprotocol := a.protocol?.or r.subprotocol
      rejection := a.rejection?.or r.rejection
      headers := (a.header?.map r.headers.append).getD r.headers } := by
  have last {α : Type} (read : CreatorAct → Option α) :
      ((before ++ [a]).filterMap read).getLast? = (read a).or (before.filterMap read).getLast? := by
    rw [List.filterMap_append]
    cases said : read a with
    | none =>
        rw [List.filterMap_cons_none said, List.filterMap_nil, List.append_nil, Option.none_or]
    | some v =>
        rw [List.filterMap_cons_some said, List.filterMap_nil, List.getLast?_concat, Option.some_or]
  have laid : layAll policy (before ++ [a]) = a.laidOver (layAll policy before) := by
    rw [layAll, List.foldl_append]
    rfl
  have fields : (before ++ [a]).filterMap CreatorAct.header?
      = ((a.header?.map (Http.Headers.append ⟨before.filterMap CreatorAct.header?⟩)).getD
        ⟨before.filterMap CreatorAct.header?⟩).fields := by
    rw [List.filterMap_append]
    cases said : a.header? with
    | none => rw [List.filterMap_cons_none said, List.filterMap_nil, List.append_nil]; rfl
    | some field => rw [List.filterMap_cons_some said, List.filterMap_nil]; rfl
  simp only [Response.after, last, laid, fields]

/-- An act that the creator goes on after. -/
def CreatorAct.GoesOn (before : List CreatorAct) : CreatorAct → Prop
  | .stall => False
  | .fire _ lenient => reportsOf before = [] ∨ lenient = true
  | _ => True

theorem CreatorAct.goesOn_cases (before : List CreatorAct) (a : CreatorAct) :
    a.GoesOn before ∨ a = .stall ∨ ∃ o, a = .fire o false ∧ reportsOf before ≠ [] := by
  cases a with
  | stall => exact .inr (.inl rfl)
  | fire o lenient =>
      by_cases goes : reportsOf before = [] ∨ lenient = true
      · exact .inl goes
      · obtain ⟨fired, strict⟩ := not_or.mp goes
        obtain rfl : lenient = false := Bool.eq_false_iff.mpr strict
        exact .inr (.inr ⟨o, rfl, fired⟩)
  | acceptSubprotocol | customize | edit | sendError | appendHeader | note | call | pause =>
      exact .inl trivial

theorem goOn_of_goesOn {a : CreatorAct} {rest : List CreatorAct} (finish : Finish)
    (goes : a.GoesOn before) :
    goOn finish before (a :: rest) = goOn finish (before ++ [a]) rest := by
  cases a with
  | stall => exact absurd goes id
  | fire o lenient => exact if_pos goes
  | acceptSubprotocol | customize | edit | sendError | appendHeader | note | call | pause => rfl

theorem goOn_of_refused {o : Outcome} {rest : List CreatorAct} (finish : Finish)
    (fired : reportsOf before ≠ []) : goOn finish before (.fire o false :: rest)
      = some (before ++ [.fire o false], .fail .alreadyCompleted) :=
  if_neg (by simpa using fired)

/-- What a creator has done before it ends is where its acts begin, if it ends. -/
theorem goOn_prefix {acts done : List CreatorAct} {finish last : Finish}
    (goes : goOn finish before acts = some (done, last)) : done <+: before ++ acts := by
  induction acts generalizing before with
  | nil =>
      obtain ⟨rfl, -⟩ := Prod.mk.inj (Option.some.inj goes)
      exact List.prefix_append before []
  | cons a rest ih =>
      rw [List.append_cons]
      rcases a.goesOn_cases before with onward | rfl | ⟨o, rfl, fired⟩
      · rw [goOn_of_goesOn finish onward] at goes
        exact ih goes
      · exact nomatch goes
      · rw [goOn_of_refused finish fired] at goes
        obtain ⟨rfl, -⟩ := Prod.mk.inj (Option.some.inj goes)
        exact List.prefix_append _ rest

/-! ### Exchanges on the hub -/

namespace Exchange

def calls (x : Exchange) : List Call :=
  match x.stage with
  | .calling _ calls _ _ | .opening _ calls => calls
  | _ => []

variable {c : Container} {h : Hub} {x : Exchange}

theorem undisturbed_fire (h : Hub) (x : Exchange) (o : Outcome) :
    h.Undisturbed (x.fire h o).1 := by
  unfold fire
  split
  · exact .refl h
  · exact .note h rfl

theorem undisturbed_conclude (h : Hub) (x : Exchange) (outcome : UpgradeOutcome) :
    h.Undisturbed (x.conclude h outcome).1 := ⟨rfl, rfl, rfl, rfl⟩

theorem undisturbed_failWith (h : Hub) (x : Exchange) (e : NegotiationError) :
    h.Undisturbed (x.failWith h e).1 := by
  have logged := Hub.Undisturbed.log h .warn "WebSocket negotiation failed"
    [("error", .text e.message), ("path", .text x.request.path)]
  exact (logged.trans (undisturbed_fire _ x (.failed e))).trans (undisturbed_conclude _ _ _)

theorem perform_hub (h : Hub) (matched : Path.Match) (rest : List CreatorAct) (finish : Finish)
    (a : CreatorAct) (creating : x.stage = .creating matched (a :: rest) finish) :
    h.Undisturbed (x.perform h matched rest finish a).1
      ∧ (x.perform h matched rest finish a).2.calls = a.call?.toList := by
  cases a with
  | fire o lenient =>
      have undisturbed := undisturbed_fire h x o
      rw [perform]
      generalize x.fire h o = result at undisturbed ⊢
      obtain ⟨k, y, fired⟩ := result
      dsimp only at undisturbed ⊢
      split
      · exact ⟨undisturbed, rfl⟩
      · exact ⟨undisturbed, rfl⟩
  | stall =>
      refine ⟨.refl h, ?_⟩
      rw [perform, calls, creating]
      rfl
  | note write => exact ⟨.note h rfl, rfl⟩
  | acceptSubprotocol | customize | edit | sendError | appendHeader | call | pause =>
      exact ⟨.refl h, rfl⟩

/-! ### Runs -/

theorem run_of_ended (ended : x.hasEnded = true) : x.run c h = (h, x) := by
  rw [run, dif_pos ended]

theorem run_of_stalled (stalled : x.isStalled = true) : x.run c h = (h, x) := by
  rw [run]
  split
  · rfl
  · rfl

theorem run_of_step (c : Container) (h : Hub) (working : x.hasEnded = false)
    (going : x.isStalled = false) : x.run c h = (x.step c h).2.run c (x.step c h).1 := by
  rw [run, dif_neg (by simp [working]), dif_neg (by simp [going])]

theorem run_calling {matched : Path.Match} {calls : List Call} {acts : List CreatorAct}
    {finish : Finish} (stage : x.stage = .calling matched calls acts finish) (c : Container)
    (h : Hub) :
    x.run c h = run c (h.run calls) { x with stage := .creating matched acts finish } := by
  induction h, calls using Hub.run.induct generalizing x with
  | case1 h =>
      have open_ : x.hasEnded = false := by rw [hasEnded, stage]
      have going : x.isStalled = false := by rw [isStalled, stage]
      rw [Hub.run_nil, run_of_step c h open_ going, step, stage]
  | case2 h call rest ih =>
      have open_ : x.hasEnded = false := by rw [hasEnded, stage]
      have going : x.isStalled = false := by rw [isStalled, stage]
      rw [Hub.run_cons, run_of_step c h open_ going, step, stage]
      exact ih rfl

theorem run_opening {key : SessionKey} {calls : List Call} (stage : x.stage = .opening key calls)
    (c : Container) (h : Hub) : (h.run calls).Undisturbed (x.run c h).1
      ∧ (x.run c h).2.stage = .finished true
      ∧ (x.run c h).2.response = { x.response with session := some key }
      ∧ (x.run c h).2.completion = (x.completion.fire .succeeded).1 := by
  induction h, calls using Hub.run.induct generalizing x with
  | case1 h =>
      have going : x.isStalled = false := by rw [isStalled, stage]
      have open_ : x.hasEnded = false := by rw [hasEnded, stage]
      obtain ⟨request, response, completion, now⟩ := x
      obtain rfl : now = .opening key [] := stage
      let y : Exchange :=
        ⟨request, { response with session := some key }, completion, .opening key []⟩
      have steps : step c h ⟨request, response, completion, .opening key []⟩
          = (y.fire h .succeeded).2.1.conclude (y.fire h .succeeded).1 .established := rfl
      rw [Hub.run_nil, run_of_step c h open_ going, steps, run_of_ended rfl, fire_exchange]
      exact ⟨(undisturbed_fire h y .succeeded).trans (undisturbed_conclude _ _ _), rfl, rfl, rfl⟩
  | case2 h call rest ih =>
      have going : x.isStalled = false := by rw [isStalled, stage]
      have open_ : x.hasEnded = false := by rw [hasEnded, stage]
      have steps : x.step c h
          = ((call.step h).1, { x with stage := .opening key ((call.step h).2 ++ rest) }) := by
        rw [step, stage]
      rw [Hub.run_cons, run_of_step c h open_ going, steps]
      exact ih rfl

/-- The creator is at work: some acts are done, others are left. -/
structure AtWork (policy : Config.SessionConfig) (matched : Path.Match) (finish : Finish)
    (before rest : List CreatorAct) (x : Exchange) : Prop where
  stage : x.stage = .creating matched rest finish
  response : x.response = .after policy before
  follows : x.completion.Follows (reportsOf before)

structure Ended (policy : Config.SessionConfig) (matched : Path.Match) (done : List CreatorAct)
    (last : Finish) (x : Exchange) : Prop where
  stage : x.stage = .created matched last
  response : x.response = .after policy done
  follows : x.completion.Follows (reportsOf done)

variable {policy : Config.SessionConfig} {matched : Path.Match} {finish : Finish}
  {before rest : List CreatorAct} {a : CreatorAct} {start : Hub} {past : List (Hub × Call)}

theorem fired_iff {reports : List Outcome} (follows : x.completion.Follows reports) (h : Hub)
    (o : Outcome) : (x.fire h o).2.2 = reports.isEmpty := by
  rw [fire, Completion.fire, follows.2]
  cases reports.isEmpty with
  | true | false => rfl

theorem AtWork.goes (working : x.AtWork policy matched finish before (a :: rest))
    (goes : a.GoesOn before) (c : Container) (leads : start.Leads (callsOf before) [] past h) :
    ∃ (k : Hub) (y : Exchange) (past : List (Hub × Call)), x.run c h = y.run c k
      ∧ y.AtWork policy matched finish (before ++ [a]) rest
      ∧ start.Leads (callsOf (before ++ [a])) [] past k := by
  have open_ : x.hasEnded = false := by rw [hasEnded, working.stage]
  have going : x.isStalled = false := by
    rw [isStalled, working.stage]
    cases a with
    | stall => exact absurd goes id
    | _ => rfl
  have steps : x.step c h = x.perform h matched rest finish a := by rw [step, working.stage]
  have response := after_snoc policy before a
  have follows := working.follows
  have none_called : start.Leads (callsOf before ++ []) [] past
      (x.perform h matched rest finish a).1 := by
    rw [List.append_nil]
    exact leads.quiet (perform_hub h matched rest finish a working.stage).1
  have none_reported : x.completion.Follows (reportsOf before ++ []) := by rwa [List.append_nil]
  rw [← working.response] at response
  rw [run_of_step c h open_ going, steps, callsOf_snoc]
  cases a with
  | stall => exact absurd goes id
  | fire o lenient =>
      have goes_on : ((x.fire h o).2.2 || lenient) = true := by
        have first_or_lenient : reportsOf before = [] ∨ lenient = true := goes
        rw [fired_iff follows]
        simpa using first_or_lenient
      refine ⟨_, _, past, rfl, ?_, none_called⟩
      simp only [perform]
      rw [if_pos goes_on, fire_exchange]
      refine ⟨rfl, response.symm, ?_⟩
      rw [reportsOf_snoc]
      exact follows.fire o
  | call called entry =>
      have ran := run_calling
        (x := { x with stage := .calling matched [called] rest finish }) rfl c h
      refine ⟨_, _, _, ran, ⟨rfl, response.symm, ?_⟩, leads.call entry⟩
      rw [reportsOf_snoc]
      exact none_reported
  | acceptSubprotocol | customize | edit | sendError | appendHeader | note | pause =>
      refine ⟨_, _, past, rfl, ⟨rfl, response.symm, ?_⟩, none_called⟩
      rw [reportsOf_snoc]
      exact none_reported

theorem AtWork.refused {o : Outcome}
    (working : x.AtWork policy matched finish before (.fire o false :: rest))
    (fired : reportsOf before ≠ []) (h : Hub) :
    (x.perform h matched rest finish (.fire o false)).2.Ended policy matched
      (before ++ [.fire o false]) (.fail .alreadyCompleted) := by
  have response := after_snoc policy before (.fire o false)
  rw [← working.response] at response
  have stops : ¬ ((x.fire h o).2.2 || false) = true := by
    rw [fired_iff working.follows]
    simpa using fired
  simp only [Exchange.perform]
  rw [if_neg stops, fire_exchange]
  refine ⟨rfl, response.symm, ?_⟩
  rw [reportsOf_snoc]
  exact working.follows.fire o

/-- A creator goes through its plan, and then has ended; or it stalls on the way. Meanwhile it has
called what its acts call. -/
theorem AtWork.run {acts : List CreatorAct}
    (working : x.AtWork policy matched finish before acts) (c : Container)
    (leads : start.Leads (callsOf before) [] past h) :
    match goOn finish before acts with
    | none => ∃ done rest past, before ++ acts = done ++ .stall :: rest
        ∧ (x.run c h).2.hasEnded = false ∧ start.Leads (callsOf done) [] past (x.run c h).1
    | some (done, last) => ∃ (k : Hub) (y : Exchange) (past : List (Hub × Call)),
        x.run c h = y.run c k ∧ start.Leads (callsOf done) [] past k
        ∧ y.Ended policy matched done last := by
  -- On the acts that are left; what is done grows with each of them, so `before` varies.
  induction acts generalizing x h before past with
  | nil =>
      have going : x.isStalled = false := by rw [isStalled, working.stage]
      have open_ : x.hasEnded = false := by rw [hasEnded, working.stage]
      have steps : x.step c h = (h, { x with stage := .created matched finish }) := by
        rw [step, working.stage]
      rw [run_of_step c h open_ going, steps]
      exact ⟨h, _, past, rfl, leads, rfl, working.response, working.follows⟩
  | cons a rest ih =>
      have open_ : x.hasEnded = false := by rw [hasEnded, working.stage]
      rcases a.goesOn_cases before with goes | rfl | ⟨o, rfl, fired⟩
      · obtain ⟨k, y, past, ran, still, leads⟩ := working.goes goes c leads
        have later := ih still leads
        rw [← List.append_cons] at later
        rw [goOn_of_goesOn finish goes, ran]
        exact later
      · have stalled : x.isStalled = true := by rw [isStalled, working.stage]
        rw [run_of_stalled stalled]
        exact ⟨before, rest, past, rfl, open_, leads⟩
      · have going : x.isStalled = false := by rw [isStalled, working.stage]
        have steps : x.step c h = x.perform h matched rest finish (.fire o false) := by
          rw [step, working.stage]
        have undisturbed :=
          (perform_hub h matched rest finish (.fire o false) working.stage).1
        have same : callsOf (before ++ [.fire o false]) = callsOf before := by
          rw [callsOf_snoc]
          exact List.append_nil _
        rw [goOn_of_refused finish fired, run_of_step c h open_ going, steps]
        refine ⟨_, _, past, rfl, ?_, working.refused fired h⟩
        rw [same]
        exact leads.quiet undisturbed

theorem Ended.judged {done : List CreatorAct} {last : Finish}
    (ended : x.Ended policy matched done last) (h : Hub)
    (no_session : ∀ endpoint, last = .accept endpoint → reportsOf done ≠ []) :
    h.Undisturbed (x.judge h matched last).1
      ∧ (x.judge h matched last).2.stage = .finished true
      ∧ (x.judge h matched last).2.response = .after policy done
      ∧ (x.judge h matched last).2.completion.Settled (reportsOf done) last.outcome := by
  have failed (e : NegotiationError) : h.Undisturbed (x.failWith h e).1
      ∧ (x.failWith h e).2.stage = .finished true
      ∧ (x.failWith h e).2.response = .after policy done
      ∧ (x.failWith h e).2.completion.Settled (reportsOf done) (.failed e) := by
    obtain ⟨stage, settled⟩ := settled_failWith h ended.follows e
    refine ⟨undisturbed_failWith h x e, stage, ?_, settled⟩
    rw [failWith_exchange]
    exact ended.response
  cases last with
  | accept endpoint =>
      have fired : x.completion.isCompleted = true := by
        rw [Completion.isCompleted, ended.follows.2]
        simpa using no_session endpoint rfl
      rw [judge, if_pos fired]
      exact ⟨(Hub.Undisturbed.log h _ _ _).trans (undisturbed_conclude _ _ _), rfl, ended.response,
        ended.follows.settled fired _⟩
  | decline =>
      have logged := Hub.Undisturbed.log h .debug "Creator declined upgrade"
        [("path", .text x.request.path)]
      by_cases fired : x.completion.isCompleted = true
      · simp only [judge, if_pos fired]
        exact ⟨logged.trans (undisturbed_conclude _ _ _), rfl, ended.response,
          ended.follows.settled fired _⟩
      · simp only [judge, if_neg fired, fire_exchange]
        exact ⟨(logged.trans (undisturbed_fire _ x .succeeded)).trans (undisturbed_conclude _ _ _),
          rfl, ended.response, ended.follows.settle _⟩
  | fail e => exact failed (.creator e)
  | panic payload => exact failed (.panicked payload.message)

theorem Ended.run_judge {done : List CreatorAct} {last : Finish}
    (ended : x.Ended policy matched done last) (c : Container) (h : Hub) :
    x.run c h = (x.judge h matched last).2.run c (x.judge h matched last).1 := by
  have going : x.isStalled = false := by rw [isStalled, ended.stage]
  have open_ : x.hasEnded = false := by rw [hasEnded, ended.stage]
  have steps : x.step c h = x.judge h matched last := by rw [step, ended.stage]
  rw [run_of_step c h open_ going, steps]

/-- A creator that ends with an endpoint and has reported nothing gets a session: one that is new,
under what the creator left in the response. -/
theorem Ended.run_accept {done : List CreatorAct} {endpoint : Session.Endpoint}
    (ended : x.Ended policy matched done (.accept endpoint)) (unreported : reportsOf done = [])
    (c : Container) (h : Hub) :
    let left := Response.after policy done
    ∃ made, (h.create matched left.config left.subprotocol endpoint).1.Undisturbed made
      ∧ (made.run [.openSession h.nextKey]).Undisturbed (x.run c h).1
      ∧ (x.run c h).2.stage = .finished true
      ∧ (x.run c h).2.response = { left with session := some h.nextKey }
      ∧ (x.run c h).2.completion.Settled (reportsOf done) .succeeded := by
  intro left
  have armed : ¬ x.completion.isCompleted = true := by
    rw [Completion.isCompleted, ended.follows.2, unreported]
    decide
  let y : Exchange :=
    { x with response := left, stage := .opening h.nextKey [.openSession h.nextKey] }
  obtain ⟨made, quiet, judged⟩ : ∃ made,
      (h.create matched left.config left.subprotocol endpoint).1.Undisturbed made
        ∧ x.judge h matched (.accept endpoint) = (made, y) := by
    simp only [judge, if_neg armed, ended.response]
    exact ⟨_, .log _ _ _ _, rfl⟩
  obtain ⟨undisturbed, stage, response, completion⟩ := run_opening (x := y) rfl c made
  rw [ended.run_judge, judged]
  refine ⟨made, quiet, undisturbed, stage, response, ?_⟩
  rw [completion]
  exact ended.follows.settle .succeeded

theorem Ended.run_quiet {done : List CreatorAct} {last : Finish}
    (ended : x.Ended policy matched done last)
    (no_session : ∀ endpoint, last = .accept endpoint → reportsOf done ≠ [])
    (c : Container) (h : Hub) : h.Undisturbed (x.run c h).1
      ∧ (x.run c h).2.stage = .finished true
      ∧ (x.run c h).2.response = .after policy done
      ∧ (x.run c h).2.completion.Settled (reportsOf done) last.outcome := by
  have judged := ended.judged h no_session
  have concluded : (x.judge h matched last).2.hasEnded = true := by rw [hasEnded, judged.2.1]
  rw [ended.run_judge, run_of_ended concluded]
  exact judged

theorem run_unmapped (arrived : x.stage = .arrived) (none_takes : c.resolve x.request.path = none)
    (h : Hub) : x.run c h
      = (h.log .trace "No WebSocket mapping for path" [("path", .text x.request.path)],
        { x with stage := .finished false }) := by
  have going : x.isStalled = false := by rw [isStalled, arrived]
  have open_ : x.hasEnded = false := by rw [hasEnded, arrived]
  have steps : x.step c h
      = (h.log .trace "No WebSocket mapping for path" [("path", .text x.request.path)],
        { x with stage := .finished false }) := by rw [step, arrived]; simp only [none_takes]
  rw [run_of_step c h open_ going, steps, run_of_ended rfl]

theorem run_mapped (request : Request) {n : Negotiator}
    (taken : c.resolve request.path = some (n, matched)) (h : Hub) :
    let plan := n.creator { request with matched := some matched }
    ∃ x : Exchange, run c h { request } = x.run c h
      ∧ x.AtWork n.config matched plan.finish [] plan.acts := by
  intro plan
  let x : Exchange := {
    request := { request with matched := some matched }
    response := .after n.config []
    stage := .creating matched plan.acts plan.finish }
  have steps : step c h { request } = (h, x) := by
    rw [step]
    simp only [taken]
    rfl
  refine ⟨x, ?_, rfl, rfl, rfl, rfl⟩
  rw [run_of_step c h rfl rfl, steps]

end Exchange
end Upgrade
end Gateway
