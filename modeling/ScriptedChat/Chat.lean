import ScriptedChat.Http.Request
import ScriptedChat.Json.Reader

/-!
# Chat requests

The body of a request to an endpoint is an object. Only its messages can make a request malformed; any
other field that is not of its kind counts as absent.

* `Chat`: what a request asks for.
* `Chat.read`: the chat request in the body of a request.
* `Chat.includeUsage`: whether the usage is asked for at the end of a stream.

The simulator's `ChatRequest.parse` and `include_usage` are `Chat.read` and `Chat.includeUsage`.
-/

namespace ScriptedChat

/-- What a chat request asks for. -/
structure Chat where
  /-- the whole body -/
  body : Json
  model : Option String
  stream : Bool
  messages : List Json
  tools : List Json
  deriving BEq, Repr, Inhabited

namespace Chat

/-- A blank byte. -/
def isBlankByte (b : UInt8) : Bool :=
  b.toNat == 0x20 || b.toNat == 0x09 || b.toNat == 0x0A || b.toNat == 0x0C || b.toNat == 0x0D

/-- The JSON value in the body of a request. -/
def document (request : Http.Request) : Except Failure Json :=
  match request.bodyFault with
  | some message => .error (.malformedRequest message)
  | none =>
    if request.body.all isBlankByte then .error (.malformedRequest "request body is empty")
    else
      match Json.read request.body with
      | .error e => .error (.malformedRequest ("request body is not valid JSON: " ++ e.message))
      | .ok value => .ok value

/-- The messages in a body. -/
def messagesOf (body : Json) : Except Failure (List Json) :=
  match body.get? "messages" with
  | some (.arr messages) => .ok messages
  | none => .ok []
  | some .null => .ok []
  | some _ => .error (.malformedRequest "`messages` must be an array")

/-- The chat request that a body stands for. -/
def ofBody (body : Json) : Except Failure Chat :=
  match body with
  | .obj _ => do
    let messages ← messagesOf body
    return {
      body
      model := (body.getText? "model").filter fun model => model ≠ ""
      stream := ((body.get? "stream").bind Json.asBool?).getD false
      messages
      tools := ((body.get? "tools").bind Json.asItems?).getD [] }
  | _ => .error (.malformedRequest "request body must be a JSON object")

/-- The chat request in the body of a request. -/
def read (request : Http.Request) : Except Failure Chat := do
  ofBody (← document request)

/-- Whether the usage is asked for at the end of a stream. -/
def includeUsage (chat : Chat) : Bool :=
  (((chat.body.get? "stream_options").bind (·.get? "include_usage")).bind Json.asBool?).getD false

end Chat

end ScriptedChat
