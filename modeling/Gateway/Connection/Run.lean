import Gateway.Connection.Pump
import Gateway.Hub.Run

/-!
Running a pump on its own until it waits for what is not there. Input comes first, then output,
then the wish to close.
-/
namespace Gateway.Connection.Pump

def next? (h : Hub) (p : Pump) : List Inbound → Option (Choice × List Inbound)
  | i :: inbox => some (.inbound i, inbox)
  | [] =>
    match h.session? p.key with
    | none => none
    | some s =>
      if !s.queue.isEmpty then some (.outbound, [])
      else if s.closeRequested then some (.closeSignal, [])
      else none

/-- Goes on for a number of steps, or until the pump has ended or has nothing to take up. A run of
calls counts as one step. -/
def runFor : Nat → Hub → Pump → List Inbound → Hub × Pump
  | 0, h, p, _ => (h, p)
  | fuel + 1, h, p, inbox =>
    match p.calls, p.stage with
    | [], .done => (h, p)
    | [], .waiting =>
      match p.next? h inbox with
      | none => (h, p)
      | some (choice, inbox) =>
        let (h, p) := p.step h (some choice)
        runFor fuel h p inbox
    | [], _ =>
      let (h, p) := p.step h none
      runFor fuel h p inbox
    | calls, _ => runFor fuel (h.run calls) { p with calls := [] } inbox

/-- Steps enough for some input and for all the output that can be queued meanwhile. -/
def enough (inbox : List Inbound) : Nat := 8 * (inbox.length + 2) * (Session.queueCapacity + 2)

def run (h : Hub) (p : Pump) (inbox : List Inbound) : Hub × Pump :=
  runFor (enough inbox) h p inbox

end Gateway.Connection.Pump
