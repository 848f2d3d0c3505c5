import Gateway.Scenario.Step

/-!
The transcript of a scenario: for each step its answer, what was seen to happen in the meantime,
what was logged, and what each client read. Where a step closes sessions in no particular order,
what happened is put in the order of their names.
-/
namespace Gateway.Scenario

structure StepRecord where
  reply : Reply
  events : List String
  log : List Log.Line
  received : List (String × List Received)

namespace World

def sentence (subject verb name : String) (phase : Session.Phase) (detail : Option String) :
    String :=
  subject ++ " " ++ verb ++ " " ++ name ++ " (" ++ phase.title ++ ")"
    ++ (match detail with
      | none => ""
      | some d => ": " ++ d)

/-- An entry of the journal as an event, with the session it is about. Log lines are no events. -/
def event? (w : World) : Entry → Option (Option SessionKey × String)
  | .line _ => none
  | .heard x =>
    if x.listener.audible then
      some (some x.key, sentence x.listener.name x.event.kind.label (w.nameOf x.key) x.phase
        x.event.detail?)
    else none
  | .called c key phase =>
    some (some key, sentence "endpoint" c.kind.label (w.nameOf key) phase c.detail?)
  | .sendFailed key e =>
    some (some key, "endpoint send failed " ++ w.nameOf key ++ ": " ++ e.message)
  | .noted text => some (none, text)

def line? : Entry → Option Log.Line
  | .line l => some l
  | _ => none

def sortName (w : World) (key : Option SessionKey) : String := (key.map w.nameOf).getD ""

/-- Sorts by the names of sessions, without changing the order within one. -/
def sortBySession {α : Type} (w : World) (key : α → Option SessionKey) (xs : List α) : List α :=
  xs.mergeSort fun a b => decide (w.sortName (key a) ≤ w.sortName (key b))

def isUnordered : Step → Bool
  | .registry .closeAll | .network (.advance _) => true
  | _ => false

def readJournal (w : World) (unordered : Bool) : List String × List Log.Line :=
  let events := w.hub.journal.filterMap w.event?
  let lines := w.hub.journal.filterMap line?
  if unordered then
    ((w.sortBySession Prod.fst events).map Prod.snd, w.sortBySession Log.Line.session? lines)
  else (events.map Prod.snd, lines)

/-- Performs one step and lets the pumps run. The journal and the clients' mail are read. -/
def play (w : World) (s : Step) : World × StepRecord :=
  let (w, reply) := w.perform s
  let w := w.settle
  let (events, log) := w.readJournal (isUnordered s)
  let received := w.clients.filterMap fun c =>
    if c.unread.isEmpty then none else some (c.name, c.unread)
  ({ w with hub := { w.hub with journal := [] }, clients := w.clients.map Client.catchUp },
    { reply, events, log, received })

def playAll (w : World) : List Step → List StepRecord
  | [] => []
  | s :: rest =>
    let (w, r) := w.play s
    r :: w.playAll rest

end World
end Gateway.Scenario
