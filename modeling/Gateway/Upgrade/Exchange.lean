import Gateway.Hub.Run
import Gateway.Upgrade.Container

/-!
Exchanges: one upgrade request on its way through a container. An exchange goes from stage to
stage in steps that other tasks can come between. The creator's acts are steps of their own; what
the creator calls on the registry, and the opening of its session, are done in the steps of the
registry.

An exchange that a mapping takes completes once: with what the creator reports itself, or else
with how the creator ends. One that is dropped while the creator is at work is cancelled.
-/
namespace Gateway.Upgrade

inductive Stage where
  | arrived
  | creating (matched : Path.Match) (acts : List CreatorAct) (finish : Finish)
  /-- The creator has called the registry; the calls that are left of it. -/
  | calling (matched : Path.Match) (calls : List Call) (acts : List CreatorAct) (finish : Finish)
  | created (matched : Path.Match) (finish : Finish)
  /-- A session is being opened; the calls that are left of it. -/
  | opening (key : SessionKey) (calls : List Call)
  /-- The end. `handled` says whether a mapping took the request. -/
  | finished (handled : Bool)
  | dropped

structure Exchange where
  request : Request
  response : Response := {}
  completion : Completion := {}
  stage : Stage := .arrived

namespace Exchange

def fire (h : Hub) (x : Exchange) (o : Outcome) : Hub × Exchange × Bool :=
  match x.completion.fire o with
  | (completion, true) => (h, { x with completion }, true)
  | (_, false) => (h.note (.line (Completion.refusal o)), x, false)

def conclude (h : Hub) (x : Exchange) (outcome : UpgradeOutcome) : Hub × Exchange :=
  ({ h with metrics := h.metrics.countUpgrade outcome }, { x with stage := .finished true })

def failWith (h : Hub) (x : Exchange) (e : NegotiationError) : Hub × Exchange :=
  let h := h.log .warn "WebSocket negotiation failed"
    [("error", .text e.message), ("path", .text x.request.path)]
  let (h, x, _) := x.fire h (.failed e)
  x.conclude h .failed

def perform (h : Hub) (x : Exchange) (matched : Path.Match) (rest : List CreatorAct)
    (finish : Finish) (a : CreatorAct) : Hub × Exchange :=
  let go (x : Exchange) := { x with stage := .creating matched rest finish }
  match a with
  | .acceptSubprotocol p => (h, go { x with response.subprotocol := some p })
  | .customize o => (h, go { x with response.config := x.response.config.customized o })
  | .edit f => (h, go { x with response.config := f x.response.config })
  | .sendError status reason => (h, go { x with response.rejection := some ⟨status, reason⟩ })
  | .appendHeader field => (h, go { x with response.headers := x.response.headers.append field })
  | .fire o lenient =>
    let (h, x, fired) := x.fire h o
    if fired || lenient then (h, go x)
    else (h, { x with stage := .created matched (.fail .alreadyCompleted) })
  | .note write => (h.note (.noted (write x.response)), go x)
  | .call c _ => (h, { x with stage := .calling matched [c] rest finish })
  | .pause => (h, go x)
  | .stall => (h, x)

/-- Judges how the creator ended. An endpoint becomes a session, unless the creator completed the
exchange itself. -/
def judge (h : Hub) (x : Exchange) (matched : Path.Match) : Finish → Hub × Exchange
  | .accept endpoint =>
    if x.completion.isCompleted then
      x.conclude (h.log .warn
        "Creator completed the exchange and returned an endpoint, discarding it"
        [("path", .text x.request.path)]) .declined
    else
      let (h, key) := h.create matched x.response.config x.response.subprotocol endpoint
      (h.log .debug "WebSocket session established" [("path", .text x.request.path),
          ("path_spec", .text matched.spec.toString), ("session_id", .session key)],
        { x with stage := .opening key [.openSession key] })
  | .decline =>
    let h := h.log .debug "Creator declined upgrade" [("path", .text x.request.path)]
    if x.completion.isCompleted then x.conclude h .declined
    else
      let (h, x, _) := x.fire h .succeeded
      x.conclude h .declined
  | .fail e => x.failWith h (.creator e)
  | .panic payload => x.failWith h (.panicked payload.message)

/-- One step. An exchange that stalls or has ended stays as it is. -/
def step (c : Container) (h : Hub) (x : Exchange) : Hub × Exchange :=
  match x.stage with
  | .arrived =>
    match c.resolve x.request.path with
    | none =>
      (h.log .trace "No WebSocket mapping for path" [("path", .text x.request.path)],
        { x with stage := .finished false })
    | some (n, matched) =>
      let request := { x.request with matched := some matched }
      let plan := n.creator request
      (h, { x with request, response.config := n.config,
                   stage := .creating matched plan.acts plan.finish })
  | .creating matched [] finish => (h, { x with stage := .created matched finish })
  | .creating matched (a :: rest) finish => x.perform h matched rest finish a
  | .calling matched (call :: calls) acts finish =>
    let (h, more) := call.step h
    (h, { x with stage := .calling matched (more ++ calls) acts finish })
  | .calling matched [] acts finish => (h, { x with stage := .creating matched acts finish })
  | .created matched finish => x.judge h matched finish
  | .opening key (call :: calls) =>
    let (h, more) := call.step h
    (h, { x with stage := .opening key (more ++ calls) })
  | .opening key [] =>
    let (h, x, _) := { x with response.session := some key }.fire h .succeeded
    x.conclude h .established
  | .finished _ | .dropped => (h, x)

def hasEnded (x : Exchange) : Bool :=
  match x.stage with
  | .finished _ | .dropped => true
  | _ => false

def isStalled (x : Exchange) : Bool :=
  match x.stage with
  | .creating _ (.stall :: _) _ => true
  | _ => false

def handled (x : Exchange) : Bool :=
  match x.stage with
  | .finished handled => handled
  | .arrived => false
  | _ => true

/-- Drops the exchange where it stands. While the creator is at work, this cancels it. What has
called the registry cannot be dropped until the call is done. -/
def abandon (h : Hub) (x : Exchange) : Hub × Exchange :=
  match x.stage with
  | .creating _ _ _ =>
    if x.completion.isCompleted then (h, { x with stage := .dropped })
    else
      let h := h.log .debug "Negotiation dropped before completing" []
      let (h, x, _) := x.fire h (.failed .cancelled)
      (h, { x with stage := .dropped })
  | .arrived => (h, { x with stage := .dropped })
  | _ => (h, x)

/-- The measure of what is left: the stage, and within a stage its acts and calls. -/
def measure (h : Hub) (x : Exchange) : Nat × Nat × Nat × Nat × Nat :=
  match x.stage with
  | .arrived => (4, 0, 0, 0, 0)
  | .creating _ acts _ => (3, 2 * acts.length, 0, 0, 0)
  | .calling _ calls acts _ => (3, 2 * acts.length + 1, h.measure calls)
  | .created _ _ => (2, 0, 0, 0, 0)
  | .opening _ calls => (1, 0, h.measure calls)
  | .finished _ | .dropped => (0, 0, 0, 0, 0)

end Exchange
end Gateway.Upgrade
