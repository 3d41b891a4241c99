import ScriptedChat.Delivery
import ScriptedChat.Json.Printer

/-!
# Replies

* `Body`, `Reply`: what an endpoint answers.
* `Reply.text`: the body as it is sent.

The simulator's `ResponseBody`, `SimResponse` and `into_text` are `Body`, `Reply` and `Reply.text`.
-/

namespace ScriptedChat.Http

/-- The body of a reply. -/
inductive Body where
  | json (value : Json)
  | stream (settings : StreamSettings) (frames : List Frame)
  | text (content : String)
  deriving BEq, Repr, Inhabited

/-- The type of a body, as a header names it. -/
def Body.contentType : Body → String
  | .json _ => "application/json"
  | .stream _ _ => "text/event-stream"
  | .text _ => "text/plain; charset=utf-8"

/-- A body as it is sent. A stream that reaches its deadline ends early. -/
def Body.content : Body → String
  | .json value => value.compact
  | .stream settings frames => Delivery.deliveredText settings frames
  | .text content => content

/-- What an endpoint answers. -/
structure Reply where
  status : Nat
  body : Body
  deriving BEq, Repr, Inhabited

/-- A reply to a request that has succeeded. -/
def Reply.ok (body : Body) : Reply := { status := 200, body }

/-- The body of a reply as it is sent. -/
def Reply.text (reply : Reply) : String := reply.body.content

end ScriptedChat.Http
