import Mathlib.Data.List.Basic
import ScriptedChat.Completion.Stream
import ScriptedChat.Json.Reader
import ScriptedChat.Proofs.Json.Fields

/-!
# A client of chat completions

What a client makes of an answer.  It knows the names of the fields and nothing
else: the chunks of a stream are put together delta by delta, and a document is
read field by field.  Both end in the same record, an `Answer`.

* `Reply.add` — one delta more;
* `Draft.addChunk`, `Answer.ofChunks?` — a whole stream of chunks;
* `Answer.ofFrames?` — the same from the texts of frames, up to the mark that
  ends them;
* `Answer.ofDocument?` — a document;
* `shown` — what an answer to a plan has to show.
-/

namespace ScriptedChat.Completion

/-! ## Fields -/

/-- The text in a field, none at all where the field is missing. -/
def fieldText (name : String) (value : Json) : String :=
  (value.getText? name).getD ""

/-- The items in a field, none where the field is missing. -/
def fieldItems (name : String) (value : Json) : List Json :=
  ((value.get? name).bind Json.asItems?).getD []

/-! ## The message -/

/-- A message as a client holds it. -/
structure Reply where
  content : String
  annotations : List Json
  calls : List ToolCall
  reasoning : Option String
  details : Option Json

/-- A message of which nothing has come yet. -/
def Reply.empty : Reply where
  content := ""
  annotations := []
  calls := []
  reasoning := none
  details := none

/-- One part of a tool call.  A number that is not known yet begins a call, any
other one goes on with its arguments. -/
def addCallPart (calls : List ToolCall) (part : Json) : Option (List ToolCall) := do
  let index ← (part.get? "index").bind Json.asNat?
  let function ← part.get? "function"
  let fragment ← function.getText? "arguments"
  if index < calls.length then
    return calls.modify index fun call => { call with arguments := call.arguments ++ fragment }
  else if index = calls.length then
    let id ← part.getText? "id"
    let name ← function.getText? "name"
    return calls ++ [{ id, name, arguments := fragment }]
  else none

/-- A text that grows by fragments and is missing before the first. -/
def addFragment (text fragment : Option String) : Option String :=
  match fragment with
  | none => text
  | some fragment => some (text.getD "" ++ fragment)

/-- A value that may come once. -/
def addOnce (held value : Option Json) : Option (Option Json) :=
  match held, value with
  | held, none => some held
  | none, some value => some (some value)
  | some _, some _ => none

/-- A message after one more delta. -/
def Reply.add (reply : Reply) (delta : Json) : Option Reply := do
  let calls ← (fieldItems "tool_calls" delta).foldlM addCallPart reply.calls
  let details ← addOnce reply.details (delta.get? "reasoning_details")
  return {
    content := reply.content ++ fieldText "content" delta
    annotations := reply.annotations ++ fieldItems "annotations" delta
    calls
    reasoning := addFragment reply.reasoning (delta.getText? "reasoning")
    details }

/-! ## Streams -/

/-- What every part of an answer carries. -/
structure Head where
  id : String
  model : String
  created : Int
  deriving DecidableEq

def Head.of? (payload : Json) : Option Head := do
  let id ← payload.getText? "id"
  let model ← payload.getText? "model"
  let created ← (payload.get? "created").bind Json.asInt?
  return { id, model, created }

/-- A whole answer as a client holds it. -/
structure Answer where
  head : Head
  reply : Reply
  finishReason : String

/-- An answer of which some chunks have come. -/
structure Draft where
  head : Option Head
  reply : Reply
  finishReason : Option String

def Draft.empty : Draft where
  head := none
  reply := .empty
  finishReason := none

/-- The only choice of a chunk.  A reason to finish may come once. -/
def Draft.addChoice (draft : Draft) (choice : Json) : Option Draft := do
  let delta ← choice.get? "delta"
  let reply ← draft.reply.add delta
  match choice.getText? "finish_reason" with
  | none => some { draft with reply }
  | some reason =>
    if draft.finishReason.isNone then some { draft with reply, finishReason := some reason }
    else none

/-- An answer after one more chunk, which has to carry the same head as those
before it. -/
def Draft.addChunk (draft : Draft) (chunk : Json) : Option Draft := do
  let head ← Head.of? chunk
  let choices ← (chunk.get? "choices").bind Json.asItems?
  if draft.head.all (· = head) then
    choices.foldlM Draft.addChoice { draft with head := some head }
  else none

/-- An answer of which everything has come. -/
def Draft.answer? (draft : Draft) : Option Answer := do
  let head ← draft.head
  let finishReason ← draft.finishReason
  return { head, reply := draft.reply, finishReason }

/-- The answer that chunks make up. -/
def Answer.ofChunks? (chunks : List Json) : Option Answer := do
  (← chunks.foldlM Draft.addChunk .empty).answer?

/-- The values that frames carry before the mark that ends a stream, which has
to be the last frame. -/
def payloads? : List Frame → Option (List Json)
  | [] => none
  | frame :: frames =>
    if frame.isDone then if frames.isEmpty then some [] else none
    else do
      let payload ← (Json.readText frame.data).toOption
      let payloads ← payloads? frames
      return payload :: payloads

/-- The answer that a stream of frames makes up. -/
def Answer.ofFrames? (frames : List Frame) : Option Answer := do
  Answer.ofChunks? (← payloads? frames)

/-! ## Documents -/

/-- A tool call of a document. -/
def call? (value : Json) : Option ToolCall := do
  let id ← value.getText? "id"
  let function ← value.get? "function"
  let name ← function.getText? "name"
  let arguments ← function.getText? "arguments"
  return { id, name, arguments }

/-- The content of a message; null stands for no content. -/
def content? : Json → Option String
  | .null => some ""
  | value => value.asText?

/-- The only choice of a document. -/
def choice? (document : Json) : Option Json := do
  match ← (document.get? "choices").bind Json.asItems? with
  | [choice] => some choice
  | _ => none

/-- The message of a document. -/
def message? (document : Json) : Option Json := do
  (← choice? document).get? "message"

/-- The message of a document as a client holds it. -/
def Reply.of? (message : Json) : Option Reply := do
  let content ← (message.get? "content").bind content?
  let calls ← (fieldItems "tool_calls" message).mapM call?
  return {
    content
    annotations := fieldItems "annotations" message
    calls
    reasoning := message.getText? "reasoning"
    details := message.get? "reasoning_details" }

/-- The answer that a document holds. -/
def Answer.ofDocument? (document : Json) : Option Answer := do
  let head ← Head.of? document
  let choice ← choice? document
  let message ← choice.get? "message"
  let reply ← Reply.of? message
  let finishReason ← choice.getText? "finish_reason"
  return { head, reply, finishReason }

/-! ## What has to be shown -/

/-- What every part of an answer has to carry. -/
def headOf (stamp : Stamp) : Head where
  id := stamp.id
  model := stamp.model
  created := stamp.created

/-- What the answer to a plan has to show. -/
def shown (plan : Plan) (stamp : Stamp) : Answer where
  head := headOf stamp
  reply :=
    { content := (render plan).content
      annotations := (render plan).references.map Reference.toJson
      calls := (render plan).toolCalls
      reasoning := (render plan).reasoning
      details := (render plan).reasoning.map fun text => .arr [reasoningDetail text] }
  finishReason := finishReason plan

end ScriptedChat.Completion
