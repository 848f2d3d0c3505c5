import Gateway.Upgrade.Completion

/-!
Handles of completions under names. A signal either runs a callback, which is seen by whoever asks
what fired, or puts its outcome into a mailbox that is read once. Taking a name that is in use
gives up the handle that had it.
-/
namespace Gateway.Upgrade

/-- Where the outcome of a channel is kept for its reader. -/
inductive Mailbox where
  | waiting
  | full (o : Outcome)
  | emptied
  deriving DecidableEq, Repr

structure Signal where
  completion : Completion := {}
  name : String
  /-- The mailbox of a channel; a callback has none. -/
  mailbox : Option Mailbox := none
  deriving DecidableEq, Repr

/-- Signals in order of making, and the names of handles and of readers. -/
structure Handles where
  signals : List Signal := []
  held : List (String × Nat) := []
  readers : List (String × Nat) := []
  deriving DecidableEq, Repr

inductive HandleOp where
  | callback (name : String)
  | channel (name : String)
  | clone (name source : String)
  | report (name : String) (o : Outcome)
  | isCompleted (name : String)
  | describe (name : String)
  | drop (name : String)
  | receive (name : String)
  | dropReader (name : String)
  deriving DecidableEq, Repr

inductive HandleReply where
  | done
  | refused
  | flag (b : Bool)
  | text (s : String)
  | received (o : Outcome)
  | empty
  | closed
  | unknown
  deriving DecidableEq, Repr

/-- What else happened: callbacks that ran, by the name of their signal, and log lines. -/
structure HandleEffects where
  fired : List (String × Outcome) := []
  log : List Log.Line := []
  deriving DecidableEq, Repr

def HandleEffects.and (a b : HandleEffects) : HandleEffects :=
  ⟨a.fired ++ b.fired, a.log ++ b.log⟩

namespace Signal

/-- A signal after its completion has changed: a first outcome goes into the mailbox, or is what
the callback saw. -/
def settle (s : Signal) (c : Completion) : Signal × HandleEffects :=
  match c.calls.drop s.completion.calls.length with
  | [] => ({ s with completion := c }, {})
  | o :: _ =>
    match s.mailbox with
    | none => ({ s with completion := c }, { fired := [(s.name, o)] })
    | some .waiting => ({ s with completion := c, mailbox := some (.full o) }, {})
    | some m => ({ s with completion := c, mailbox := some m }, {})

end Signal

namespace Handles

def change (h : Handles) (place : Nat) (f : Completion → Completion) : Handles × HandleEffects :=
  match h.signals[place]? with
  | none => (h, {})
  | some s =>
    let (s, effects) := s.settle (f s.completion)
    ({ h with signals := h.signals.set place s }, effects)

def completion? (h : Handles) (name : String) : Option Completion := do
  let place ← h.held.lookup name
  let s ← h.signals[place]?
  return s.completion

def release (h : Handles) (name : String) : Handles × Bool × HandleEffects :=
  match h.held.lookup name with
  | none => (h, false, {})
  | some place =>
    let log := if (h.completion? name).any Completion.cancelsOnDrop then
      [Completion.abandonment] else []
    let left : Handles := { h with held := h.held.filter (·.1 != name) }
    let (h, effects) := left.change place Completion.drop
    (h, true, ({ log } : HandleEffects).and effects)

/-- Gives a name to a handle, giving up the handle that had it. -/
def assign (h : Handles) (name : String) (place : Nat) : Handles × HandleEffects :=
  let (h, _, effects) := h.release name
  ({ h with held := h.held ++ [(name, place)] }, effects)

def report (h : Handles) (name : String) (o : Outcome) :
    Handles × HandleReply × HandleEffects :=
  match h.held.lookup name, h.completion? name with
  | some place, some c =>
    let (h, effects) := h.change place fun c => (c.fire o).1
    if (c.fire o).2 then (h, .done, effects)
    else (h, .refused, { effects with log := [Completion.refusal o] })
  | _, _ => (h, .unknown, {})

/-- Reads a mailbox. An outcome is handed out once. -/
def receive (h : Handles) (name : String) : Handles × HandleReply :=
  match h.readers.lookup name with
  | none => (h, .unknown)
  | some place =>
    match h.signals[place]? with
    | some { mailbox := some (.full o), completion, name } =>
      ({ h with signals := h.signals.set place { completion, name, mailbox := some .emptied } },
        .received o)
    | some { mailbox := some .waiting, .. } => (h, .empty)
    | _ => (h, .closed)

def perform (h : Handles) : HandleOp → Handles × HandleReply × HandleEffects
  | .callback name =>
    let place := h.signals.length
    let made : Handles := { h with signals := h.signals ++ [{ name }] }
    let (h, effects) := made.assign name place
    (h, .done, effects)
  | .channel name =>
    let place := h.signals.length
    let made : Handles := { h with
      signals := h.signals ++ [{ name, mailbox := some .waiting }]
      readers := h.readers.filter (·.1 != name) ++ [(name, place)] }
    let (h, effects) := made.assign name place
    (h, .done, effects)
  | .clone name source =>
    match h.held.lookup source with
    | none => (h, .unknown, {})
    | some place =>
      let (h, _) := h.change place Completion.clone
      let (h, effects) := h.assign name place
      (h, .done, effects)
  | .report name o => h.report name o
  | .isCompleted name =>
    match h.completion? name with
    | none => (h, .unknown, {})
    | some c => (h, .flag c.isCompleted, {})
  | .describe name =>
    match h.completion? name with
    | none => (h, .unknown, {})
    | some c => (h, .text c.summary, {})
  | .drop name =>
    let (h, held, effects) := h.release name
    (h, .flag held, effects)
  | .receive name =>
    let (h, reply) := h.receive name
    (h, reply, {})
  | .dropReader name =>
    ({ h with readers := h.readers.filter (·.1 != name) }, .flag (h.readers.lookup name).isSome,
      {})

def performAll (h : Handles) : List HandleOp → Handles × List (HandleReply × HandleEffects)
  | [] => (h, [])
  | op :: rest =>
    let (h, reply, effects) := h.perform op
    let (h, answers) := h.performAll rest
    (h, (reply, effects) :: answers)

def releaseEach (h : Handles) : List String → HandleEffects
  | [] => {}
  | name :: rest =>
    let (h, _, effects) := h.release name
    effects.and (h.releaseEach rest)

/-- Gives up every handle, in the order of their names. -/
def close (h : Handles) : HandleEffects :=
  h.releaseEach ((h.held.map (·.1)).mergeSort fun a b => decide (a ≤ b))

end Handles
end Gateway.Upgrade
