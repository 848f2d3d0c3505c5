import Gateway.Session.Listener

/-!
Counters and the gauge that a server publishes. A counter is listed once it has counted, the
gauge once it has been set.
-/
namespace Gateway

inductive UpgradeOutcome where
  | established
  | declined
  | failed
  deriving DecidableEq, Repr

def UpgradeOutcome.label : UpgradeOutcome → String
  | .established => "established"
  | .declined => "declined"
  | .failed => "failed"

structure Metrics where
  openSessions : Option Nat := none
  established : Nat := 0
  declined : Nat := 0
  failed : Nat := 0
  faultsOpened : Nat := 0
  faultsClosed : Nat := 0
  faultsFailed : Nat := 0
  utf8Errors : Nat := 0
  deriving DecidableEq, Repr, Inhabited

namespace Metrics

def countUpgrade (m : Metrics) : UpgradeOutcome → Metrics
  | .established => { m with established := m.established + 1 }
  | .declined => { m with declined := m.declined + 1 }
  | .failed => { m with failed := m.failed + 1 }

def countFault (m : Metrics) : Session.EventKind → Metrics
  | .opened => { m with faultsOpened := m.faultsOpened + 1 }
  | .closed => { m with faultsClosed := m.faultsClosed + 1 }
  | .failed => { m with faultsFailed := m.faultsFailed + 1 }

def countUtf8Error (m : Metrics) : Metrics := { m with utf8Errors := m.utf8Errors + 1 }

def setOpenSessions (m : Metrics) (n : Nat) : Metrics := { m with openSessions := some n }

def labelled (name key value : String) : String :=
  name ++ "\x7b" ++ key ++ "=\x22" ++ value ++ "\x22\x7d"

/-- One sample, unless the counter has not counted. -/
def counterLine? (name : String) (n : Nat) : Option String :=
  if n = 0 then none else some (name ++ " " ++ toString n)

def lines (m : Metrics) : List String :=
  let fault (event : Session.EventKind) :=
    counterLine? (labelled "wsgate_listener_faults_total" "event" event.label)
  let upgrade (outcome : UpgradeOutcome) :=
    counterLine? (labelled "wsgate_upgrades_total" "outcome" outcome.label)
  [fault .closed m.faultsClosed,
    fault .failed m.faultsFailed,
    fault .opened m.faultsOpened,
    m.openSessions.map fun n => "wsgate_open_sessions " ++ toString n,
    upgrade .declined m.declined,
    upgrade .established m.established,
    upgrade .failed m.failed,
    counterLine? "wsgate_utf8_errors_total" m.utf8Errors].filterMap id

end Metrics
end Gateway
