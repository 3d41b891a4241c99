import Mathlib.Data.List.Basic
import ScriptedChat.Message.Stream
import ScriptedChat.Proofs.Json.Fields

/-!
# A client of messages

What a client makes of a message.  The events of a stream fill one content block
after the other; a document is read field by field.  Both end in the same
record, an `Answer`.

* `OpenBlock.add`, `OpenBlock.close` — a block that is being filled;
* `Draft.addEvent`, `Answer.ofEvents?` — a whole stream of events, which has to
  keep to its order: one block at a time, numbered from zero;
* `Answer.ofDocument?` — a document;
* `shown` — what a message for a plan has to show.
-/

namespace ScriptedChat.Message

/-! ## Blocks -/

/-- A block that is being filled. -/
structure OpenBlock where
  block : Json
  /-- the arguments of a tool so far; none before the first fragment -/
  input : Option String

/-- A block with a fragment appended to one of its texts. -/
def extend? (name fragment : String) (block : Json) : Option Json :=
  (block.getText? name).map fun text => block.set name (.str (text ++ fragment))

/-- A block after one more addition. -/
def OpenBlock.add (current : OpenBlock) (delta : Json) : Option OpenBlock := do
  let type ← delta.getText? "type"
  if type = "thinking_delta" then
    let fragment ← delta.getText? "thinking"
    let block ← extend? "thinking" fragment current.block
    return { current with block }
  else if type = "text_delta" then
    let fragment ← delta.getText? "text"
    let block ← extend? "text" fragment current.block
    return { current with block }
  else if type = "signature_delta" then
    let signature ← delta.getText? "signature"
    return { current with block := current.block.set "signature" (.str signature) }
  else if type = "input_json_delta" then
    let fragment ← delta.getText? "partial_json"
    return { current with input := some (current.input.getD "" ++ fragment) }
  else none

/-- What the arguments of a tool denote: a value, or else the text itself. -/
def denoted (text : String) : Json :=
  (Json.readText text).toOption.getD (.str text)

/-- A block when it is closed.  If there were arguments, they are its input. -/
def OpenBlock.close (current : OpenBlock) : Json :=
  match current.input with
  | none => current.block
  | some text => current.block.set "input" (denoted text)

/-! ## Streams -/

/-- A message of which some events have come. -/
structure Draft where
  message : Option Json
  content : List Json
  current : Option OpenBlock
  closing : Option Json
  stopped : Bool

def Draft.empty : Draft where
  message := none
  content := []
  current := none
  closing := none
  stopped := false

/-- The number of a block in an event. -/
def index? (event : Json) : Option Nat :=
  (event.get? "index").bind Json.asNat?

/-- A message begins once. -/
def Draft.start (draft : Draft) (event : Json) : Option Draft := do
  let message ← event.get? "message"
  if draft.message.isNone then some { draft with message := some message } else none

/-- A block is opened when none is open, under the number that comes next. -/
def Draft.openBlock (draft : Draft) (event : Json) : Option Draft := do
  let index ← index? event
  let block ← event.get? "content_block"
  if draft.current.isNone && index = draft.content.length then
    some { draft with current := some { block, input := none } }
  else none

/-- The open block is filled. -/
def Draft.fillBlock (draft : Draft) (event : Json) : Option Draft := do
  let index ← index? event
  let delta ← event.get? "delta"
  let current ← draft.current
  let filled ← current.add delta
  if index = draft.content.length then some { draft with current := some filled } else none

/-- The open block is closed. -/
def Draft.closeBlock (draft : Draft) (event : Json) : Option Draft := do
  let index ← index? event
  let current ← draft.current
  if index = draft.content.length then
    some { draft with content := draft.content ++ [current.close], current := none }
  else none

/-- The reason to stop comes once, after all blocks. -/
def Draft.conclude (draft : Draft) (event : Json) : Option Draft :=
  if draft.current.isNone && draft.closing.isNone then some { draft with closing := some event }
  else none

/-- A message after one more event.  Nothing comes after the last one. -/
def Draft.addEvent (draft : Draft) (event : Json) : Option Draft := do
  let type ← event.getText? "type"
  if draft.stopped then none
  else if type = "message_start" then draft.start event
  else if type = "content_block_start" then draft.openBlock event
  else if type = "content_block_delta" then draft.fillBlock event
  else if type = "content_block_stop" then draft.closeBlock event
  else if type = "message_delta" then draft.conclude event
  else if type = "message_stop" then some { draft with stopped := true }
  else none

/-! ## Answers -/

/-- A whole message as a client holds it. -/
structure Answer where
  id : String
  model : String
  content : List Json
  stopReason : String
  outputTokens : Nat
  serverTools : Option Json

/-- A message of which everything has come. -/
def Draft.answer? (draft : Draft) : Option Answer := do
  let message ← draft.message
  let closing ← draft.closing
  let id ← message.getText? "id"
  let model ← message.getText? "model"
  let delta ← closing.get? "delta"
  let stopReason ← delta.getText? "stop_reason"
  let usage ← closing.get? "usage"
  let outputTokens ← (usage.get? "output_tokens").bind Json.asNat?
  if draft.stopped then
    some
      { id, model, content := draft.content, stopReason, outputTokens
        serverTools := usage.get? "server_tool_use" }
  else none

/-- The message that events make up. -/
def Answer.ofEvents? (events : List Json) : Option Answer := do
  (← events.foldlM Draft.addEvent .empty).answer?

/-- The message that a document holds. -/
def Answer.ofDocument? (document : Json) : Option Answer := do
  let id ← document.getText? "id"
  let model ← document.getText? "model"
  let content ← (document.get? "content").bind Json.asItems?
  let stopReason ← document.getText? "stop_reason"
  let usage ← document.get? "usage"
  let outputTokens ← (usage.get? "output_tokens").bind Json.asNat?
  return {
    id, model, content, stopReason, outputTokens
    serverTools := usage.get? "server_tool_use" }

/-- What a message for a plan has to show. -/
def shown (plan : Plan) (stamp : Stamp) : Answer where
  id := stamp.id
  model := stamp.model
  content := (blocks plan).map Block.toJson
  stopReason := stopReason plan
  outputTokens := stamp.usage.outputTokens.toNat
  serverTools :=
    if webSearches plan = 0 then none
    else some (.object [("web_search_requests", .nat (webSearches plan))])

end ScriptedChat.Message
