import Gateway.Hub.Call
import Gateway.Session.Endpoint
import Gateway.Upgrade.Completion
import Gateway.Upgrade.Request

/-!
Creators: what a mapping does with a request. A creator looks at the request once and answers with
a plan: acts in order, at some of which it may be suspended, and a finish. An act can fail, which
finishes the plan early.
-/
namespace Gateway.Upgrade

inductive CreatorAct where
  | acceptSubprotocol (protocol : String)
  | customize (o : Config.Overrides)
  | edit (f : Config.SessionConfig → Config.SessionConfig)
  | sendError (status : Nat) (reason : String)
  | appendHeader (field : Http.Field)
  /-- Fires the completion. If it has fired before, the creator fails, unless it is lenient. -/
  | fire (o : Outcome) (lenient : Bool)
  | note (write : Response → String)
  /-- Calls the registry, about whatever session. -/
  | call (c : Call) (entry : c.isEntry = true)
  | pause
  | stall

inductive Finish where
  | accept (endpoint : Session.Endpoint)
  | decline
  | fail (e : CreatorError)
  | panic (payload : Session.PanicPayload)

structure Plan where
  acts : List CreatorAct := []
  finish : Finish

abbrev Creator := Request → Plan

namespace Creator

/-- Accepts every request, and the first subprotocol on offer. -/
def echo : Creator := fun request =>
  { acts := (request.subprotocols.head?.map CreatorAct.acceptSubprotocol).toList
    finish := .accept .echo }

def chatProtocol : String := "chat"

/-- Accepts requests that offer the chat subprotocol or none, into the rooms of one registry. -/
def chat (registry : Nat) : Creator := fun request =>
  if request.subprotocols.isEmpty then { finish := .accept (.chat registry) }
  else if request.offers chatProtocol then
    { acts := [.acceptSubprotocol chatProtocol], finish := .accept (.chat registry) }
  else { acts := [.sendError 400 "chat subprotocol required"], finish := .decline }

def named? (name : String) (registry : Nat) : Option Creator :=
  if name = "echo" then some echo
  else if name = "chat" then some (chat registry)
  else none

end Creator
end Gateway.Upgrade
