import Gateway.Net.SocketAddress

/-!
What a process watches itself with: one place that takes log lines and one that takes metrics.
Each is set once; the first stays.
-/
namespace Gateway

structure Observability where
  logs : Bool := false
  metrics : Bool := false

namespace Observability

inductive MetricsError where
  | badAddress
  /-- There is a place for metrics already. -/
  | taken
  deriving DecidableEq, Repr

/-- Sets where log lines go, and says whether it was this time. -/
def takeLogs (o : Observability) : Observability × Bool := ({ o with logs := true }, !o.logs)

def takeMetrics (o : Observability) (address : String) : Except MetricsError Observability :=
  match Net.SocketAddress.parse address.toList with
  | none => .error .badAddress
  | some _ => if o.metrics then .error .taken else .ok { o with metrics := true }

end Observability
end Gateway
