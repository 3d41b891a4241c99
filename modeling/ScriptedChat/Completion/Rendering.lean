import ScriptedChat.Json.Printer
import ScriptedChat.Stamp
import ScriptedChat.Text.Search

/-!
# Plans as chat completions

A chat completion has one content text and a list of tool calls. The texts of the steps are joined with
an empty line between them, and the tools of a provider become text. A citation becomes a reference
with the place of the cited text in the whole content, counted in characters.

* `Segment`: a part of the content with its references, or a tool call.
* `contentOf?`: the text of a step and its citations.
* `segments`: the segments of a list of steps.
* `Rendering`, `render`: the reasoning and the segments of a plan.

The simulator's `Rendering.build`, `push_content` and `citation_span` are `render`, `contentSegment` and
`citedSpan`.
-/

namespace ScriptedChat.Completion

/-- The text between the texts of two steps. -/
def separator : String := "\n\n"

/-- A citation with its place in the content. -/
structure Reference where
  url : String
  title : String
  start : Nat
  stop : Nat
  deriving DecidableEq, Repr

/-- A part of what a chat completion shows. -/
inductive Segment where
  | content (text : String) (references : List Reference)
  | toolCall (call : ToolCall)
  deriving DecidableEq, Repr

/-- Text in brackets after a name. -/
def bracketed (name text : String) : String :=
  "[" ++ name ++ ": " ++ text ++ "]"

/-- The text of a step and its citations; calls of the client's tools have none. -/
def contentOf? : Step → Option (String × List Citation)
  | .filler length => some (fillerText length, [])
  | .literal text => some (text, [])
  | .echo value => some (value.placeholder, [])
  | .toolCalls _ => none
  | .serverToolUse use => some (bracketed use.name use.input.compact, [])
  | .serverToolResult result =>
    match result.outcome with
    | .result value => some (bracketed result.blockType value.compact, [])
    | .error code => some (bracketed (result.blockType ++ " error") code, [])
  | .cited cited => some (cited.body.text, cited.citations)

/-- The place of the first occurrence of `quoted` in `body`, or of the whole body. -/
def citedSpan (body quoted : String) : Nat × Nat :=
  if quoted = "" then (0, body.length)
  else
    match Text.cutAt? quoted.toList body.toList with
    | some (before, _) => (before.length, before.length + quoted.length)
    | none => (0, body.length)

/-- The reference for a citation of a body that stands at `start`. -/
def referenceTo (start : Nat) (body : String) (citation : Citation) : Reference :=
  let span := citedSpan body citation.citedText
  { url := citation.url
    title := citation.title
    start := start + span.1
    stop := start + span.2 }

/-- What stands before a body when `written` characters of content are there already. -/
def gapAfter (written : Nat) : String :=
  if written = 0 then "" else separator

/-- The segment for a body when `written` characters of content are there already. -/
def contentSegment (written : Nat) (body : String) (citations : List Citation) : Segment :=
  let gap := gapAfter written
  .content (gap ++ body) (citations.map (referenceTo (written + gap.length) body))

/-- The segments of steps when `written` characters of content are there already. A step with an empty
text has none. -/
def segments (written : Nat) : List Step → List Segment
  | [] => []
  | .toolCalls calls :: steps => calls.map .toolCall ++ segments written steps
  | step :: steps =>
    match contentOf? step with
    | none => segments written steps
    | some (body, citations) =>
      if body = "" then segments written steps
      else
        contentSegment written body citations
          :: segments (written + (gapAfter written).length + body.length) steps

/-- A plan as a chat completion shows it. -/
structure Rendering where
  reasoning : Option String
  segments : List Segment

def render (plan : Plan) : Rendering :=
  { reasoning := plan.reasoningText?, segments := segments 0 plan.steps }

/-- The content text of a segment. -/
def Segment.text : Segment → String
  | .content text _ => text
  | .toolCall _ => ""

def Segment.references : Segment → List Reference
  | .content _ references => references
  | .toolCall _ => []

def Segment.call? : Segment → Option ToolCall
  | .content _ _ => none
  | .toolCall call => some call

/-- The whole content. -/
def Rendering.content (rendering : Rendering) : String :=
  String.join (rendering.segments.map Segment.text)

def Rendering.references (rendering : Rendering) : List Reference :=
  rendering.segments.flatMap Segment.references

def Rendering.toolCalls (rendering : Rendering) : List ToolCall :=
  rendering.segments.filterMap Segment.call?

/-- Why the turn ends: the client has to answer tool calls, or nothing is left to say. -/
def finishReason (plan : Plan) : String :=
  if plan.hasToolCalls then "tool_calls" else "stop"

end ScriptedChat.Completion
