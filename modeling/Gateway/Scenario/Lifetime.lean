import Gateway.Scenario.Transcript
import Gateway.Server

/-!
A whole lifetime of a server: it is set up from a configuration, some exchanges are made before it
starts to listen, and it is told to stop. Sessions are named by number in the order in which they
came about.
-/
namespace Gateway.Scenario

structure Lifetime where
  /-- Live sessions before the server started and after it stopped. -/
  openBefore : Nat
  openAfter : Nat
  /-- How many tasks were told to stop, where no signal of the system did it. -/
  notified : Option Nat
  sessions : List Session
  log : List Log.Line
  world : World

namespace Lifetime

def isClosing (line : Log.Line) : Bool := line.message == Hub.announcement .closed

/-- All sessions are closed at once, in no particular order; these lines are put in order of level
and then of session. -/
def sortClosings (w : World) (lines : List Log.Line) : List Log.Line :=
  let key (line : Log.Line) : String := line.level.label ++ " " ++ w.sortName line.session?
  let rest := lines.dropWhile fun line => !isClosing line
  lines.takeWhile (fun line => !isClosing line)
    ++ (rest.filter isClosing).mergeSort (fun a b => decide (key a ≤ key b))
    ++ rest.filter fun line => !isClosing line

def exchanges (w : World) (c : Upgrade.Container) : List String → World
  | [] => w
  | path :: rest =>
    exchanges (w.handle ("s" ++ toString w.hub.sessions.length) { path } false c).1 c rest

/-- Lives a server's life. It is stopped by a signal of the system, or by whoever runs it. -/
def live (config : Config.ServerConfig) (paths : List String) (signal : Option Signal) :
    Except StartupError Lifetime :=
  match Startup.build {} config with
  | (_, .error e) => .error e
  | (hub, .ok c) =>
    let w := exchanges { hub } c paths
    let (hub, shutdown) := Server.start w.hub {} config.admin.enabled
    let (hub, notified) := match signal with
      | some s => ((Server.onSignal hub shutdown s).1, none)
      | none => (hub, some shutdown.trigger.2)
    let hub := Server.stop hub
    let after := { w with hub }
    .ok {
      openBefore := w.hub.registry.live.length
      openAfter := hub.registry.live.length
      notified
      sessions := hub.sessions
      log := sortClosings after (hub.journal.filterMap World.line?)
      world := after }

end Lifetime
end Gateway.Scenario
