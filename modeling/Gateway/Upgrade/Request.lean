import Gateway.Config.Session
import Gateway.Http.Header
import Gateway.Http.Uri
import Gateway.Path.Match
import Gateway.Text.Blank
import Gateway.Log.Line

/-!
What a creator sees of an exchange: the request, and the response it may shape. The response
carries this exchange's own copy of the policy.
-/
namespace Gateway.Upgrade

structure Request where
  path : String
  query : Option String := none
  headers : Http.Headers := {}
  subprotocols : List String := []
  matched : Option Path.Match := none
  deriving DecidableEq, Repr, Inhabited

namespace Request

def offerHeader : String := "sec-websocket-protocol"

/-- The subprotocols in one offer: what stands between commas, without blanks around it and
without empty ones. -/
def offersIn (offer : String) : List String :=
  ((offer.toList.splitOn ',').map Text.trim).filterMap fun p =>
    if p.isEmpty then none else some (String.ofList p)

/-- The subprotocols offered by headers. A value that is not text offers none. -/
def offered (headers : Http.Headers) : List String :=
  ((headers.valuesOf offerHeader).filterMap Http.valueText?).flatMap offersIn

def ofParts (uri : Http.Uri) (headers : Http.Headers) : Request where
  path := String.ofList uri.path
  query := uri.query.map String.ofList
  headers := headers
  subprotocols := offered headers

def offers (r : Request) (protocol : String) : Bool := r.subprotocols.contains protocol

def param? (r : Request) (name : String) : Option String :=
  (r.matched.bind fun m => m.param? name.toList).map String.ofList

end Request

structure Rejection where
  status : Nat
  reason : String
  deriving DecidableEq, Repr

structure Response where
  config : Config.SessionConfig := {}
  subprotocol : Option String := none
  rejection : Option Rejection := none
  headers : Http.Headers := {}
  session : Option SessionKey := none
  deriving DecidableEq, Repr, Inhabited

end Gateway.Upgrade
