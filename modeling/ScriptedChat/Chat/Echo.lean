import ScriptedChat.Chat
import ScriptedChat.Script.Plan
import ScriptedChat.Transcript

/-!
# Echoes of a request

A script can show what the request says: its system prompt, its tools, its address, its headers and its
parameters.

* `systemPrompt?`, `toolNames`, `headersText`, `paramsText`: the values that can be shown.
* `echoText`: the text that stands for an echo.

The simulator's `system_prompt`, `tool_names`, `headers_json` and `params_json` are those values, and its
`RequestContext.resolve` is `echoText`.
-/

namespace ScriptedChat.Chat

/-! ## System prompt -/

/-- The text of a content block; a block that names no type is a block of text. -/
def promptBlock? (block : Json) : Option String :=
  if ((block.getText? "type").getD "text") = "text" then block.getText? "text" else none

/-- The text of a content: as it is, or its blocks of text, a line each. -/
def promptText? : Json → Option String
  | .str text => some text
  | .arr blocks =>
    match blocks.filterMap promptBlock? with
    | [] => none
    | texts => some (String.intercalate "\n" texts)
  | _ => none

/-- Whether a message instructs the assistant. -/
def isInstruction (message : Json) : Bool :=
  Transcript.hasRole "system" message || Transcript.hasRole "developer" message

/-- The system prompt in its own field, or else in the first message that instructs the assistant. -/
def systemPrompt? (chat : Chat) : Option String :=
  ((chat.body.get? "system").bind promptText?).or
    (((chat.messages.find? isInstruction).bind (·.get? "content")).bind promptText?)

/-! ## Tools -/

/-- The name of a tool: of its function, or its own, or its type. The first of them that is given must be
a text. -/
def toolName? (tool : Json) : Option String :=
  ((((tool.get? "function").bind (·.get? "name")).or (tool.get? "name")).or
    (tool.get? "type")).bind Json.asText?

def toolNames (chat : Chat) : List String :=
  chat.tools.filterMap toolName?

/-! ## Headers -/

/-- All values of the headers with the given name. -/
def headerValue (headers : List Http.Header) (name : String) : String :=
  String.intercalate ", "
    ((headers.filter fun header => header.name == name).map fun header =>
      Utf8.decodeLossy header.value)

/-- The headers as an object, a field for every name. -/
def headersJson (headers : List Http.Header) : Json :=
  .object (headers.map fun header => (header.name, .str (headerValue headers header.name)))

def headersText (request : Http.Request) : String :=
  (headersJson request.headers).compact

/-! ## Parameters -/

/-- All parameters but the messages. -/
def allParams (body : Json) : Json :=
  .obj ((body.asFields?.getD []).filter fun (name, _) => name ≠ "messages")

/-- The parameters with the given names; null stands for one that is absent. -/
def chosenParams (body : Json) (names : List String) : Json :=
  .object (names.map fun name => (name, .orNull (body.get? name)))

/-- The parameters with the given names; all but the messages where no name is given. -/
def paramsText (chat : Chat) (names : List String) : String :=
  (if names.isEmpty then allParams chat.body else chosenParams chat.body names).compact

/-! ## Echoes -/

/-- The text that stands for an echo. -/
def echoText (request : Http.Request) (chat : Chat) : Echo → String
  | .systemPrompt => chat.systemPrompt?.getD "(no system prompt)"
  | .toolsList =>
    if chat.toolNames.isEmpty then "(no tools)" else String.intercalate ", " chat.toolNames
  | .requestUrl => request.url
  | .requestHeaders => headersText request
  | .requestParams names => chat.paramsText names

end ScriptedChat.Chat
