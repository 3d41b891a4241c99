import ScriptedChat.EventStream.Production
import ScriptedChat.Json.Printer
import ScriptedChat.Message.Block
import ScriptedChat.Text.Fragment

/-!
# Messages as a stream of events

A streamed message begins with an empty message. Then every block is opened without its content, filled by
deltas and closed, one block after the other. At the end come the reason to stop with the usage, and a
last event.

* `Delta`: an addition to a block.
* `Block.opening`, `Block.deltas`: a block without its content, and the additions that give it back.
* `Event`, `Event.name`, `Event.payload`: the events, with their names and their content.
* `events`: the events for a plan.
* `frames`: the stream.
* `acts`: what its producer does.

The simulator's `start_payload`, `deltas` and `stream` for messages are `Block.opening`, `Block.deltas`
and `acts`.
-/

namespace ScriptedChat.Message

/-! ## Deltas -/

/-- An addition to a block. -/
inductive Delta where
  | thinking (fragment : String)
  | signature (value : String)
  | text (fragment : String)
  | inputJson (fragment : String)
  deriving DecidableEq, Repr

/-- The name of the kind of addition. -/
def Delta.type : Delta → String
  | .thinking _ => "thinking_delta"
  | .signature _ => "signature_delta"
  | .text _ => "text_delta"
  | .inputJson _ => "input_json_delta"

def Delta.toJson (delta : Delta) : Json :=
  match delta with
  | .thinking fragment => .object [("type", .str delta.type), ("thinking", .str fragment)]
  | .signature value => .object [("type", .str delta.type), ("signature", .str value)]
  | .text fragment => .object [("type", .str delta.type), ("text", .str fragment)]
  | .inputJson fragment => .object [("type", .str delta.type), ("partial_json", .str fragment)]

/-- A block before any addition. -/
def Block.opening : Block → Json
  | .thinking _ => thinkingJson "" ""
  | .text _ citations => textJson "" citations
  | .toolUse id name _ => useJson "tool_use" id name (.obj [])
  | .serverToolUse use => useJson "server_tool_use" use.id use.name (.obj [])
  | .serverToolResult result => resultJson result

/-- The additions for the arguments of a tool, at least one. -/
def inputDeltas (settings : StreamSettings) (arguments : String) : List Delta :=
  match Text.charFragments settings.argumentChunk arguments with
  | [] => [.inputJson ""]
  | fragments => fragments.map .inputJson

/-- The additions that give a block its content. -/
def Block.deltas (settings : StreamSettings) : Block → List Delta
  | .thinking content =>
    (Text.wordFragments settings.wordsPerChunk.toNat content).map .thinking
      ++ [.signature (thinkingSignature content)]
  | .text content _ => (Text.wordFragments settings.wordsPerChunk.toNat content).map .text
  | .toolUse _ _ arguments => inputDeltas settings arguments
  | .serverToolUse use => inputDeltas settings use.input.compact
  | .serverToolResult _ => []

/-! ## Events -/

/-- One event of a stream. -/
inductive Event where
  | messageStart
  | blockStart (index : Nat) (block : Block)
  | blockDelta (index : Nat) (delta : Delta)
  | blockStop (index : Nat)
  | messageDelta
  | messageStop
  deriving BEq, Repr

def Event.name : Event → String
  | .messageStart => "message_start"
  | .blockStart _ _ => "content_block_start"
  | .blockDelta _ _ => "content_block_delta"
  | .blockStop _ => "content_block_stop"
  | .messageDelta => "message_delta"
  | .messageStop => "message_stop"

/-- The message before any block. -/
def openingMessage (stamp : Stamp) : Json :=
  .object
    [("id", .str stamp.id),
     ("type", .str "message"),
     ("role", .str "assistant"),
     ("model", .str stamp.model),
     ("content", .arr []),
     ("stop_reason", .null),
     ("stop_sequence", .null),
     ("usage", .object
       [("input_tokens", .nat stamp.usage.inputTokens.toNat),
        ("output_tokens", .nat 1),
        ("cache_creation_input_tokens", .nat stamp.usage.cacheCreationInputTokens.toNat),
        ("cache_read_input_tokens", .nat stamp.usage.cacheReadInputTokens.toNat)])]

/-- The usage at the end of a stream. -/
def closingUsage (plan : Plan) (usage : UsageSettings) : Json :=
  .object (("output_tokens", .nat usage.outputTokens.toNat) :: searchesField plan)

/-- The content of an event besides its name. -/
def Event.fields (plan : Plan) (stamp : Stamp) : Event → List (String × Json)
  | .messageStart => [("message", openingMessage stamp)]
  | .blockStart index block => [("index", .nat index), ("content_block", block.opening)]
  | .blockDelta index delta => [("index", .nat index), ("delta", delta.toJson)]
  | .blockStop index => [("index", .nat index)]
  | .messageDelta =>
    [("delta", .object [("stop_reason", .str (stopReason plan)), ("stop_sequence", .null)]),
     ("usage", closingUsage plan stamp.usage)]
  | .messageStop => []

/-- The content of an event. -/
def Event.payload (plan : Plan) (stamp : Stamp) (event : Event) : Json :=
  .object (("type", .str event.name) :: event.fields plan stamp)

/-- The events of the block with the given number. -/
def blockEvents (settings : StreamSettings) (index : Nat) (block : Block) : List Event :=
  .blockStart index block :: ((block.deltas settings).map (.blockDelta index) ++ [.blockStop index])

/-- The events for a plan. -/
def events (settings : StreamSettings) (plan : Plan) : List Event :=
  .messageStart
    :: ((blocks plan).zipIdx.flatMap (fun (block, index) => blockEvents settings index block)
      ++ [.messageDelta, .messageStop])

/-- A plan as a stream of events. -/
def frames (settings : StreamSettings) (plan : Plan) (stamp : Stamp) : List Frame :=
  (events settings plan).map fun event =>
    Frame.ofJson (some event.name) (event.payload plan stamp)

/-! ## Production -/

/-- What is done for an event. The arguments of a tool are cut after its block has been opened. -/
def Event.acts (settings : StreamSettings) (plan : Plan) (stamp : Stamp) (event : Event) :
    List EventStream.Act :=
  let frame := Frame.ofJson (some event.name) (event.payload plan stamp)
  match event with
  | .blockStart _ block =>
    if block.arguments?.isSome then [.write frame, .compute settings.argumentChunk?]
    else [.write frame]
  | _ => [.write frame]

/-- What the producer of a stream of events does. -/
def acts (settings : StreamSettings) (plan : Plan) (stamp : Stamp) : List EventStream.Act :=
  (events settings plan).flatMap (Event.acts settings plan stamp)

end ScriptedChat.Message
