import Synchrony.Concept.Society
import Synchrony.Delivery.Route
import Synchrony.Json.Sorted
import Synchrony.Service.Reply

/-!
# Exchanges

The outermost layer: a request on its way to a handler of the service, and the answer on its way
back to the client. All of `Synchrony.Delivery` renders what servers and clients do on their own
account, so that the service can be run and tried as a whole. What is proved about the service is
proved about its handlers, and nothing in it depends on this layer.

An answer goes out as JSON text in which the fields of every record are in order (`Value.sorted`). A
client that only asks for the head of an answer gets no body with it.
-/

set_option autoImplicit false

namespace Synchrony

/-- What a client gets. -/
structure Response where
  status : Nat
  /-- The JSON body; other bodies are of no interest. -/
  body : Option Value := none
  /-- Whether the response counts as JSON but comes without its body. -/
  isBare : Bool := false
  deriving Repr, Inhabited

namespace Response

/-- What a client reads in a response, if it is JSON. A body that was left out cannot be read. -/
def content (response : Response) : Except Failure (Option Value) :=
  if response.isBare then
    .error (.fault .notJson "Expecting value: line 1 column 1 (char 0)")
  else .ok response.body

/-- The response that brings a JSON body. -/
def ofValue (status : Nat) (body : Value) : Response :=
  { status := status, body := some body.sorted }

end Response

/-- A response, the state of the service then, and what was logged on the way. A run that does not
end has no response. -/
structure Exchange where
  answer : Option Response
  state : Society
  records : List Log.Record := []

namespace Exchange

/-- The exchange that brings the reply of a handler. -/
def ofReply (reply : Reply Society) : Exchange where
  answer := reply.answer.map fun answer => .ofValue answer.status answer.body
  state := reply.state
  records := reply.records

/-- An exchange for which no handler has to do anything. -/
def immediate (response : Response) (state : Society) : Exchange :=
  ⟨some response, state, []⟩

end Exchange

namespace Engine

/-- What comes of a request whose method and target are known. -/
def exchange (engine : Engine Society) (steps : Nat) (verb : String) (target : Target)
    (body : Option Value) (state : Society) : Exchange :=
  match Dispatch.of verb target with
  | .run action => .ofReply (engine.replyToRun steps action body state)
  | .list =>
    if verb = "HEAD" then .immediate { status := 200, isBare := true } state
    else .immediate (.ofValue 200 engine.rulebook.counts) state
  | .options => .immediate { status := 200 } state
  | .moved => .immediate { status := 308 } state
  | .refused => .immediate { status := 400 } state
  | .notFound => .immediate { status := 404 } state
  | .notAllowed => .immediate { status := 405 } state

/-- What comes of a request, if it can be sent. -/
def reply (engine : Engine Society) (steps : Nat) (request : Request) (state : Society) :
    Except Failure Exchange := do
  let target ← request.destination
  pure (engine.exchange steps request.verb target request.json? state)

end Engine

end Synchrony
