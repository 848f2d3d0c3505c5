/-!
The shutdown signal: a broadcast that every handle can send and every subscriber receives. One
value is kept; a subscriber that missed values is told how many, and finds the last one next. A
subscriber sees only what is sent after it subscribed.
-/
namespace Gateway

structure Shutdown where
  sent : Nat := 0
  /-- For each handle ever made, whether it is still held. -/
  handles : List Bool := [true]
  /-- For each subscriber ever made, the number of values it has seen or missed before, unless it
  has gone. -/
  subscribers : List (Option Nat) := []
  deriving DecidableEq, Repr, Inhabited

namespace Shutdown

inductive Delivery where
  | signal
  | empty
  | closed
  | lagged (missed : Nat)
  deriving DecidableEq, Repr

/-- Values kept for those who have not received them. -/
def capacity : Nat := 1

def holds (s : Shutdown) (handle : Nat) : Bool := s.handles.getD handle false

def listening (s : Shutdown) : Nat := (s.subscribers.filter Option.isSome).length

def clone (s : Shutdown) : Shutdown × Nat :=
  ({ s with handles := s.handles ++ [true] }, s.handles.length)

def drop (s : Shutdown) (handle : Nat) : Shutdown :=
  { s with handles := s.handles.set handle false }

def subscribe (s : Shutdown) : Shutdown × Nat :=
  ({ s with subscribers := s.subscribers ++ [some s.sent] }, s.subscribers.length)

def unsubscribe (s : Shutdown) (subscriber : Nat) : Shutdown :=
  { s with subscribers := s.subscribers.set subscriber none }

/-- Sends the signal, and says how many subscribers there are to see it. Without any, nothing is
sent. -/
def trigger (s : Shutdown) : Shutdown × Nat :=
  if s.listening = 0 then (s, 0) else ({ s with sent := s.sent + 1 }, s.listening)

/-- What a subscriber receives next; `none` for one that has gone. -/
def receive (s : Shutdown) (subscriber : Nat) : Shutdown × Option Delivery :=
  match s.subscribers.getD subscriber none with
  | none => (s, none)
  | some seen =>
    if seen = s.sent then (s, some (if s.handles.contains true then .empty else .closed))
    else if s.sent - seen ≤ capacity then
      ({ s with subscribers := s.subscribers.set subscriber (some (seen + 1)) }, some .signal)
    else
      ({ s with subscribers := s.subscribers.set subscriber (some (s.sent - capacity)) },
        some (.lagged (s.sent - capacity - seen)))

/-- Uses of handles and subscribers, which go by their numbers. -/
inductive Op where
  | clone (handle : Nat)
  | drop (handle : Nat)
  | subscribe (handle : Nat)
  | unsubscribe (subscriber : Nat)
  | trigger (handle : Nat)
  | count (handle : Nat)
  | receive (subscriber : Nat)
  deriving DecidableEq, Repr

inductive Reply where
  | number (n : Nat)
  | flag (b : Bool)
  | delivered (d : Delivery)
  | unknown
  deriving DecidableEq, Repr

def withHandle (s : Shutdown) (handle : Nat) (r : Shutdown × Nat) : Shutdown × Reply :=
  if s.holds handle then (r.1, .number r.2) else (s, .unknown)

def perform (s : Shutdown) : Op → Shutdown × Reply
  | .clone handle => s.withHandle handle s.clone
  | .drop handle => (s.drop handle, .flag (s.holds handle))
  | .subscribe handle => s.withHandle handle s.subscribe
  | .unsubscribe subscriber =>
    (s.unsubscribe subscriber, .flag (s.subscribers.getD subscriber none).isSome)
  | .trigger handle => s.withHandle handle s.trigger
  | .count handle => s.withHandle handle (s, s.listening)
  | .receive subscriber =>
    match s.receive subscriber with
    | (s, some d) => (s, .delivered d)
    | (s, none) => (s, .unknown)

def performAll (s : Shutdown) : List Op → List Reply
  | [] => []
  | op :: rest => (s.perform op).2 :: (s.perform op).1.performAll rest

end Shutdown
end Gateway
