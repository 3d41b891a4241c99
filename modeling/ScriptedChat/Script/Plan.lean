import ScriptedChat.Json.Basic

/-!
# Plans

A script describes assistant turns. One turn is a `Plan`: some words of reasoning, if any, and a list of
steps in the order in which they are shown.

* `Step`: filler text, literal text, an echo of the request, calls of the client's tools, use and result
  of a provider's tool, or text with citations.
* `Echo`: a value of the request that a step can show, with the `marker` that names it in a script.
* `Plan.resolve`: the plan with every echo replaced by a text.
* `Plan.hasToolCalls`: whether the turn ends with calls that the client has to answer.

The simulator's `Plan`, `Step`, `Placeholder` and `resolve_placeholders` are `Plan`, `Step`, `Echo` and
`Plan.resolve`.
-/

namespace ScriptedChat

/-- A value of the request that a step can show. -/
inductive Echo where
  | systemPrompt
  | toolsList
  | requestUrl
  | requestHeaders
  | requestParams (fields : List String)
  deriving DecidableEq, Repr, Inhabited

/-- The name of an echo in a script. -/
def Echo.marker : Echo → String
  | .systemPrompt => "system_prompt_echo"
  | .toolsList => "tools_list"
  | .requestUrl => "request_url_echo"
  | .requestHeaders => "request_headers_echo"
  | .requestParams _ => "request_params_echo"

/-- A call of one of the client's tools. The arguments are text that is passed on as it is. -/
structure ToolCall where
  id : String
  name : String
  arguments : String
  deriving DecidableEq, Repr, Inhabited

/-- A use of a tool that the provider runs itself. -/
structure ServerToolUse where
  id : String
  name : String
  input : Json
  deriving BEq, Repr, Inhabited

/-- What a provider's tool returned. -/
inductive ServerToolOutcome where
  | result (value : Json)
  | error (code : String)
  deriving BEq, Repr, Inhabited

/-- The result of an earlier use of a provider's tool. -/
structure ServerToolResult where
  toolUseId : String
  name : String
  outcome : ServerToolOutcome
  deriving BEq, Repr, Inhabited

/-- The type of the content block that carries the result. -/
def ServerToolResult.blockType (result : ServerToolResult) : String :=
  result.name ++ "_tool_result"

/-- A source that a text refers to. -/
structure Citation where
  kind : String
  url : String
  title : String
  citedText : String
  deriving DecidableEq, Repr, Inhabited

/-- The text that citations belong to: given, or filler of a number of words. -/
inductive CitedBody where
  | literal (text : String)
  | filler (length : Nat)
  deriving DecidableEq, Repr, Inhabited

/-- A text with citations. -/
structure CitedText where
  body : CitedBody
  citations : List Citation
  deriving DecidableEq, Repr, Inhabited

/-- One unit of an assistant's turn. -/
inductive Step where
  /-- filler text of `length` words -/
  | filler (length : Nat)
  | literal (text : String)
  | echo (value : Echo)
  | toolCalls (calls : List ToolCall)
  | serverToolUse (use : ServerToolUse)
  | serverToolResult (result : ServerToolResult)
  | cited (text : CitedText)
  deriving BEq, Repr, Inhabited

/-- The identifier of a use of a provider's tool. -/
def Step.serverToolId? : Step → Option String
  | .serverToolUse use => some use.id
  | _ => none

/-- One turn of the assistant. -/
structure Plan where
  /-- a name for people -/
  label : String
  /-- words of reasoning before the first step -/
  reasoning : Option Nat
  steps : List Step
  deriving BEq, Repr, Inhabited

namespace Plan

/-- The turn after the last plan of a script. -/
def completion (words : Nat) : Plan :=
  { label := "completion", reasoning := none, steps := [.filler words] }

/-- The turn of a conversation without a script. -/
def filler (words : Nat) (reasoning : Option Nat) : Plan :=
  { label := "filler", reasoning, steps := [.filler words] }

/-- Whether a step calls tools. -/
def hasToolCalls (plan : Plan) : Bool :=
  plan.steps.any fun
    | .toolCalls calls => ! calls.isEmpty
    | _ => false

/-- The plan with every echo replaced by its text. -/
def resolve (text : Echo → String) (plan : Plan) : Plan :=
  { plan with steps := plan.steps.map fun
      | .echo value => .literal (text value)
      | step => step }

end Plan

end ScriptedChat
