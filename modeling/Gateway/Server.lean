import Gateway.Hub.Run
import Gateway.Shutdown

/-!
A server from its start to its stop. It waits for the shutdown signal, once for itself and once
for the admin API. When the signal comes, every open session is closed and the server stops.
-/
namespace Gateway

inductive Signal where
  | terminate
  | interrupt
  deriving DecidableEq, Repr

def Signal.name : Signal → String
  | .terminate => "SIGTERM"
  | .interrupt => "SIGINT"

namespace Server

def starting : Log.Line := ⟨.info, "HTTP server starting", [("address", .address)]⟩

def adminListening : Log.Line := ⟨.info, "Admin API listening", [("address", .address)]⟩

def received (s : Signal) : Log.Line := ⟨.info, s.name ++ " received", []⟩

def triggered (tasks : Nat) : Log.Line :=
  ⟨.info, "Shutdown triggered", [("tasks", .number tasks)]⟩

def stopping : Log.Line := ⟨.info, "Shutdown signal received, closing sessions", []⟩

def stopped : Log.Line := ⟨.info, "HTTP server stopped", []⟩

def startLines (admin : Bool) : List Log.Line :=
  if admin then [starting, adminListening] else [starting]

def start (h : Hub) (s : Shutdown) (admin : Bool) : Hub × Shutdown :=
  let s := if admin then s.subscribe.1 else s
  ({ h with journal := h.journal ++ (startLines admin).map .line }, s.subscribe.1)

def onSignal (h : Hub) (s : Shutdown) (signal : Signal) : Hub × Shutdown :=
  let (s, tasks) := s.trigger
  ((h.note (.line (received signal))).note (.line (triggered tasks)), s)

/-- The shutdown signal has come: all sessions are closed. -/
def stop (h : Hub) : Hub := (h.note (.line stopping)).closeAll.note (.line stopped)

end Server
end Gateway
