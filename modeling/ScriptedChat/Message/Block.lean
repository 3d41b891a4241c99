import ScriptedChat.Json.Reader
import ScriptedChat.Stamp
import ScriptedChat.Text.Search

/-!
# Plans as messages

A message is a list of content blocks. Reasoning becomes a block of its own before all others, and every
step becomes blocks at its place; texts that are empty have none.

* `Block`: one content block.
* `blocks`: the blocks of a plan.
* `toolUseId`, `toolInput`: identifier and arguments of a tool call, as a message shows them.
* `Block.arguments?`: the arguments of the tool that a block is the use of.
* `Block.toJson`: a block as it stands in a message.
* `document`: a plan as one message.

The simulator's `blocks`, `tool_use_id`, `tool_input`, `complete_payload` and `document` for messages are
`blocks`, `toolUseId`, `toolInput`, `Block.toJson` and `document`.
-/

namespace ScriptedChat.Message

/-- One content block. -/
inductive Block where
  | thinking (content : String)
  | text (content : String) (citations : Option (List Citation))
  | toolUse (id name arguments : String)
  | serverToolUse (use : ServerToolUse)
  | serverToolResult (result : ServerToolResult)
  deriving BEq, Repr

/-! ## Blocks of a plan -/

/-- The block of a text, unless it is empty. -/
def textBlocks (text : String) (citations : Option (List Citation)) : List Block :=
  if text = "" then [] else [.text text citations]

/-- The identifier of a tool call, with the mark that identifiers have in messages. -/
def toolUseId (id : String) : String :=
  match Text.afterFront? "call_".toList id.toList with
  | some hash => "toolu_" ++ String.ofList hash
  | none => id

def toolUseBlock (call : ToolCall) : Block :=
  .toolUse (toolUseId call.id) call.name call.arguments

/-- The blocks of a step. -/
def stepBlocks : Step → List Block
  | .filler length => textBlocks (fillerText length) none
  | .literal text => textBlocks text none
  | .echo value => textBlocks value.placeholder none
  | .toolCalls calls => calls.map toolUseBlock
  | .serverToolUse use => [.serverToolUse use]
  | .serverToolResult result => [.serverToolResult result]
  | .cited cited => textBlocks cited.body.text (some cited.citations)

/-- The block of the reasoning, if there is one. -/
def thinkingBlocks (plan : Plan) : List Block :=
  (plan.reasoningText?.map Block.thinking).toList

/-- The blocks of a plan. -/
def blocks (plan : Plan) : List Block :=
  thinkingBlocks plan ++ plan.steps.flatMap stepBlocks

/-- The arguments of the tool that a block is the use of. -/
def Block.arguments? : Block → Option String
  | .toolUse _ _ arguments => some arguments
  | .serverToolUse use => some use.input.compact
  | _ => none

/-! ## Blocks in JSON -/

/-- The arguments of a tool call: the value that the text denotes, or the text itself. -/
def toolInput (arguments : String) : Json :=
  match Json.readText arguments with
  | .ok value => value
  | .error _ => .str arguments

def citationJson (citation : Citation) : Json :=
  .object
    [("type", .str citation.kind),
     ("url", .str citation.url),
     ("title", .str citation.title),
     ("cited_text", .str citation.citedText)]

/-- The content of a tool's result. -/
def resultContent (result : ServerToolResult) : Json :=
  match result.outcome with
  | .result value => value
  | .error code =>
    .object [("type", .str (result.blockType ++ "_error")), ("error_code", .str code)]

/-- A block of reasoning. -/
def thinkingJson (text signature : String) : Json :=
  .object [("type", .str "thinking"), ("thinking", .str text), ("signature", .str signature)]

/-- The field for citations, if there are any. -/
def citationsField : Option (List Citation) → List (String × Json)
  | none => []
  | some citations => [("citations", .arr (citations.map citationJson))]

/-- A block of text. -/
def textJson (text : String) (citations : Option (List Citation)) : Json :=
  .object ([("type", .str "text"), ("text", .str text)] ++ citationsField citations)

/-- A block for the use of a tool. -/
def useJson (type id name : String) (input : Json) : Json :=
  .object [("type", .str type), ("id", .str id), ("name", .str name), ("input", input)]

/-- A block for the result of a provider's tool. -/
def resultJson (result : ServerToolResult) : Json :=
  .object
    [("type", .str result.blockType),
     ("tool_use_id", .str result.toolUseId),
     ("content", resultContent result)]

/-- A block as it stands in a message. -/
def Block.toJson : Block → Json
  | .thinking content => thinkingJson content (thinkingSignature content)
  | .text content citations => textJson content citations
  | .toolUse id name arguments => useJson "tool_use" id name (toolInput arguments)
  | .serverToolUse use => useJson "server_tool_use" use.id use.name use.input
  | .serverToolResult result => resultJson result

/-! ## The message -/

/-- Why the turn ends: the client has to run tools, or nothing is left to say. -/
def stopReason (plan : Plan) : String :=
  if plan.hasToolCalls then "tool_use" else "end_turn"

/-- The number of searches of the web in a plan. -/
def webSearches (plan : Plan) : Nat :=
  plan.steps.countP fun
    | .serverToolUse use => use.name == "web_search"
    | _ => false

/-- The field for searches of the web, if there are any. -/
def searchesField (plan : Plan) : List (String × Json) :=
  if webSearches plan = 0 then []
  else [("server_tool_use", .object [("web_search_requests", .nat (webSearches plan))])]

def usageJson (plan : Plan) (usage : UsageSettings) : Json :=
  .object
    ([("input_tokens", .nat usage.inputTokens.toNat),
      ("output_tokens", .nat usage.outputTokens.toNat),
      ("cache_creation_input_tokens", .nat usage.cacheCreationInputTokens.toNat),
      ("cache_read_input_tokens", .nat usage.cacheReadInputTokens.toNat)] ++ searchesField plan)

/-- A plan as one message. -/
def document (plan : Plan) (stamp : Stamp) : Json :=
  .object
    [("id", .str stamp.id),
     ("type", .str "message"),
     ("role", .str "assistant"),
     ("model", .str stamp.model),
     ("content", .arr ((blocks plan).map Block.toJson)),
     ("stop_reason", .str (stopReason plan)),
     ("stop_sequence", .null),
     ("usage", usageJson plan stamp.usage)]

end ScriptedChat.Message
