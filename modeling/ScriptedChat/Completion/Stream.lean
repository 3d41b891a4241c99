import ScriptedChat.Completion.Document
import ScriptedChat.EventStream.Production
import ScriptedChat.Text.Fragment

/-!
# Chat completions as a stream of chunks

A streamed chat completion is a sequence of chunks. Each adds a *delta* to the message: first the role,
then the reasoning in fragments, then the segments in their order, texts and arguments in fragments. A
chunk without a delta tells why the turn ends, one more carries the usage if it is asked for, and a frame
`[DONE]` ends the stream.

* `Delta`, `Delta.toJson`: one addition to the message.
* `segmentDeltas`: the additions for segments; tool calls are numbered in their order.
* `deltas`: the additions for a plan.
* `Chunk`, `chunks`: the chunks of a stream.
* `frames`: the stream.
* `acts`: what its producer does.

The simulator's `stream` for chat completions, with its `chunk` and `write_delta`, is `acts`.
-/

namespace ScriptedChat.Completion

/-- One addition to a message. -/
inductive Delta where
  | role
  | reasoning (fragment : String)
  | reasoningDetails (whole : String)
  | content (fragment : String)
  | references (items : List Reference)
  /-- a tool call begins, without arguments -/
  | toolCall (index : Nat) (id name : String)
  /-- the arguments of a tool call go on -/
  | arguments (index : Nat) (fragment : String)
  deriving DecidableEq, Repr

def Delta.toJson : Delta → Json
  | .role => .object [("role", .str "assistant"), ("content", .str "")]
  | .reasoning fragment => .object [("reasoning", .str fragment)]
  | .reasoningDetails whole =>
    .object [("reasoning_details", .arr [reasoningDetail whole])]
  | .content fragment => .object [("content", .str fragment)]
  | .references items =>
    .object [("annotations", .arr (items.map Reference.toJson))]
  | .toolCall index id name =>
    .object [("tool_calls", .arr [.object
      [("index", .nat index),
       ("id", .str id),
       ("type", .str "function"),
       ("function", .object [("name", .str name), ("arguments", .str "")])]])]
  | .arguments index fragment =>
    .object [("tool_calls", .arr [.object
      [("index", .nat index), ("function", .object [("arguments", .str fragment)])]])]

/-! ## Deltas -/

/-- The additions for the reasoning. -/
def reasoningDeltas (settings : StreamSettings) : Option String → List Delta
  | none => []
  | some reasoning =>
    (Text.wordFragments settings.wordsPerChunk.toNat reasoning).map .reasoning
      ++ [.reasoningDetails reasoning]

/-- The additions for a text with references. -/
def contentDeltas (settings : StreamSettings) (text : String) (references : List Reference) :
    List Delta :=
  (Text.wordFragments settings.wordsPerChunk.toNat text).map .content
    ++ if references.isEmpty then [] else [.references references]

/-- The additions for the tool call with the given number. -/
def callDeltas (settings : StreamSettings) (index : Nat) (call : ToolCall) : List Delta :=
  .toolCall index call.id call.name
    :: (Text.charFragments settings.argumentChunk call.arguments).map (.arguments index)

/-- The additions for segments, of which the first tool call has the given number. -/
def segmentDeltas (settings : StreamSettings) (index : Nat) : List Segment → List Delta
  | [] => []
  | .content text references :: segments =>
    contentDeltas settings text references ++ segmentDeltas settings index segments
  | .toolCall call :: segments =>
    callDeltas settings index call ++ segmentDeltas settings (index + 1) segments

/-- The additions for a plan. -/
def deltas (settings : StreamSettings) (plan : Plan) : List Delta :=
  .role :: (reasoningDeltas settings (render plan).reasoning
    ++ segmentDeltas settings 0 (render plan).segments)

/-! ## Chunks -/

/-- One chunk of a stream. -/
inductive Chunk where
  | delta (addition : Delta)
  | finish (reason : String)
  | usage
  deriving DecidableEq, Repr

/-- A chunk with the given choices, and further fields. -/
def chunkJson (stamp : Stamp) (choices : List Json) (more : List (String × Json)) : Json :=
  .object
    ([("id", .str stamp.id),
      ("object", .str "chat.completion.chunk"),
      ("created", .int stamp.created),
      ("model", .str stamp.model),
      ("system_fingerprint", .null),
      ("choices", .arr choices)] ++ more)

/-- The only choice of a chunk. -/
def choiceJson (delta : Json) (finishReason : Json) : Json :=
  .object
    [("index", .nat 0), ("delta", delta), ("logprobs", .null), ("finish_reason", finishReason)]

def Chunk.toJson (stamp : Stamp) : Chunk → Json
  | .delta addition => chunkJson stamp [choiceJson addition.toJson .null] []
  | .finish reason => chunkJson stamp [choiceJson (.obj []) (.str reason)] []
  | .usage => chunkJson stamp [] [("usage", usageJson stamp.usage)]

/-- The chunks of a stream. -/
def chunks (settings : StreamSettings) (plan : Plan) (stamp : Stamp) : List Chunk :=
  (deltas settings plan).map .delta ++ .finish (finishReason plan)
    :: if stamp.includeUsage then [.usage] else []

/-- A plan as a stream of chunks. -/
def frames (settings : StreamSettings) (plan : Plan) (stamp : Stamp) : List Frame :=
  (chunks settings plan stamp).map (fun chunk => Frame.ofJson none (chunk.toJson stamp))
    ++ [Frame.done]

/-! ## Production -/

/-- What is done for a chunk. The arguments of a tool call are cut after its name has been written, and the
usage is put together before it is. -/
def Chunk.acts (settings : StreamSettings) (stamp : Stamp) (chunk : Chunk) :
    List EventStream.Act :=
  let frame := Frame.ofJson none (chunk.toJson stamp)
  match chunk with
  | .delta (.toolCall _ _ _) => [.write frame, .compute settings.argumentChunk?]
  | .usage => [.compute stamp.usage.totalTokens?, .write frame]
  | _ => [.write frame]

/-- What the producer of a stream of chunks does. -/
def acts (settings : StreamSettings) (plan : Plan) (stamp : Stamp) : List EventStream.Act :=
  (chunks settings plan stamp).flatMap (Chunk.acts settings stamp) ++ [.write Frame.done]

end ScriptedChat.Completion
