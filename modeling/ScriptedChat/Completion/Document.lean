import ScriptedChat.Completion.Rendering

/-!
# Chat completions as one document

* `document`: a plan as one chat completion.
* `document?`: the same document, if the sum of its tokens can be computed.
* `Reference.toJson`, `reasoningDetail`, `usageJson`: parts that streamed chunks have as well.

The simulator's `document` for chat completions, with its `usage_json`, is `document?`.
-/

namespace ScriptedChat.Completion

def Reference.toJson (reference : Reference) : Json :=
  .object
    [("type", .str "url_citation"),
     ("url_citation", .object
       [("url", .str reference.url),
        ("title", .str reference.title),
        ("start_index", .nat reference.start),
        ("end_index", .nat reference.stop)])]

/-- The encrypted form of the reasoning. -/
def reasoningDetail (reasoning : String) : Json :=
  .object
    [("type", .str "reasoning.encrypted"),
     ("data", .str (encryptedReasoning reasoning)),
     ("index", .nat 0)]

def usageJson (usage : UsageSettings) : Json :=
  .object
    [("prompt_tokens", .nat usage.inputTokens.toNat),
     ("completion_tokens", .nat usage.outputTokens.toNat),
     ("total_tokens", .nat usage.totalTokens)]

def toolCallJson (call : ToolCall) : Json :=
  .object
    [("id", .str call.id),
     ("type", .str "function"),
     ("function", .object [("name", .str call.name), ("arguments", .str call.arguments)])]

/-- The content of a message. There is none where the message consists of tool calls alone. -/
def contentJson (rendering : Rendering) : Json :=
  if rendering.content = "" && ! rendering.toolCalls.isEmpty then .null
  else .str rendering.content

/-- A field for a list that is not empty. -/
def listField (name : String) (items : List Json) : List (String × Json) :=
  if items.isEmpty then [] else [(name, .arr items)]

/-- The fields for the reasoning, if there is one. -/
def reasoningFields : Option String → List (String × Json)
  | none => []
  | some reasoning =>
    [("reasoning", .str reasoning), ("reasoning_details", .arr [reasoningDetail reasoning])]

def messageJson (rendering : Rendering) : Json :=
  .object
    ([("role", .str "assistant"), ("content", contentJson rendering), ("refusal", .null)]
      ++ listField "tool_calls" (rendering.toolCalls.map toolCallJson)
      ++ listField "annotations" (rendering.references.map Reference.toJson)
      ++ reasoningFields rendering.reasoning)

/-- A plan as one chat completion. -/
def document (plan : Plan) (stamp : Stamp) : Json :=
  .object
    [("id", .str stamp.id),
     ("object", .str "chat.completion"),
     ("created", .int stamp.created),
     ("model", .str stamp.model),
     ("system_fingerprint", .null),
     ("choices", .arr [.object
       [("index", .nat 0),
        ("message", messageJson (render plan)),
        ("logprobs", .null),
        ("finish_reason", .str (finishReason plan))]]),
     ("usage", usageJson stamp.usage)]

/-- A plan as one chat completion, if 64 bits are enough for the sum of all tokens. -/
def document? (plan : Plan) (stamp : Stamp) : Option Json :=
  stamp.usage.totalTokens?.map fun _ => document plan stamp

end ScriptedChat.Completion
