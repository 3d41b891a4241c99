import ScriptedChat.Identifier
import ScriptedChat.Json.Printer
import ScriptedChat.Json.Record
import ScriptedChat.Script.Plan
import ScriptedChat.Text.Blank

/-!
# Instructions

An instruction is the JSON form of one plan: a name, a reasoning length, and a list of entries, each an
object with one field that names the kind of step. Reading is lenient: an entry that is no step is
passed over, and an instruction without steps and without reasoning is no plan.

* `wordCount?`: a number of words, as a number or as text, held between 0 and `maxWords`.
* `step?`: the step of one entry.
* `stepsFrom`: the steps of the entries from a position on.
* `plan?`: the plan of an instruction.
* `plans?`: the plans of a document, which is an instruction or has a list of them.

An identifier that an entry does not give is made from the seed of its instruction and its position
among all entries, so no other entry has an influence on it. The result of a provider's tool that names
no use belongs to the last use before it.

The simulator's `word_count`, `serialize_arguments`, `into_step`, `into_plan` and `parse_document` are
`wordCount?`, `argumentText`, `step?`, `plan?` and `plans?`.
-/

namespace ScriptedChat.Instruction

open Json

/-! ## Word counts -/

/-- The greatest number of words that a script can ask for. -/
def maxWords : Nat := 10000

/-- The nearest number between 0 and `maxWords`. -/
def clampWords (n : Int) : Nat :=
  min n.toNat maxWords

/-- A number of words. A fraction is cut off. Text may stand between blanks and must fit 64 bits. -/
def wordCount? : Json → Option Nat
  | .num (.int n) => some (clampWords n)
  | .num (.real x) => some (clampWords x.truncate)
  | .str text => (Text.readInt64? (Text.trim text.toList)).map clampWords
  | _ => none

/-! ## Tool calls -/

/-- The name and the arguments of a call. -/
def call? (value : Json) : Option (String × Option Json) := do
  let field ← Record.view? ["name", "args"] value
  let name ← Record.required asText? (field "name")
  let args ← Record.optional some (field "args")
  return (name, args)

/-- A list of calls, or one call. -/
def calls? (value : Json) : Option (List (String × Option Json)) :=
  Record.list call? value <|> (call? value).map fun call => [call]

/-- The text of a call's arguments: text as it is, any other value as compact JSON, an empty object where
there is none. -/
def argumentText : Option Json → String
  | none => "\x7b\x7d"
  | some .null => "\x7b\x7d"
  | some (.str text) => text
  | some value => compact value

/-- The call at a position of its entry, if it has a name. -/
def toolCall? (seed : String) (position index : Nat) (name : String) (args : Option Json) :
    Option ToolCall :=
  if name = "" then none
  else some
    { id := stableId "call_" [seed, Text.natText position, Text.natText index, name]
      name
      arguments := argumentText args }

/-- The step for a list of calls, if one of them has a name. -/
def toolCalls? (seed : String) (position : Nat) (calls : List (String × Option Json)) :
    Option Step :=
  match calls.zipIdx.filterMap fun ((name, args), i) => toolCall? seed position i name args with
  | [] => none
  | named => some (.toolCalls named)

/-! ## Provider's tools -/

/-- The mark of identifiers of a provider's tools. -/
def serverToolMark : String := "srvtoolu_"

/-- A text that is not empty. -/
def nonempty? (text : Option String) : Option String :=
  text.filter fun text => text ≠ ""

def serverToolUse? (seed : String) (position : Nat) (value : Json) : Option Step := do
  let field ← Record.view? ["id", "name", "input"] value
  let id ← Record.optional asText? (field "id")
  let name ← Record.required asText? (field "name")
  let input ← Record.optional some (field "input")
  return .serverToolUse
    { id := (nonempty? id).getD (stableId serverToolMark [seed, Text.natText position, name])
      name
      input := input.getD (.obj []) }

/-- The result of a provider's tool. An error code comes before a result. -/
def serverToolResult? (seed : String) (lastUse : Option String) (value : Json) : Option Step := do
  let field ← Record.view? ["tool_use_id", "name", "result", "error_code"] value
  let id ← Record.optional asText? (field "tool_use_id")
  let name ← Record.required asText? (field "name")
  let result ← Record.optional some (field "result")
  let code ← Record.optional asText? (field "error_code")
  return .serverToolResult
    { toolUseId := ((nonempty? id).or lastUse).getD (stableId serverToolMark [seed, "unpaired", name])
      name
      outcome := match code with
        | some code => .error code
        | none => .result (result.getD (.arr [])) }

/-! ## Cited text -/

/-- The kind of a citation that gives none. -/
def defaultCitationKind : String := "web_search_result_location"

def citation? (value : Json) : Option Citation := do
  let field ← Record.view? ["type", "url", "title", "cited_text"] value
  let kind ← Record.withDefault defaultCitationKind asText? (field "type")
  let url ← Record.withDefault "" asText? (field "url")
  let title ← Record.withDefault "" asText? (field "title")
  let citedText ← Record.withDefault "" asText? (field "cited_text")
  return { kind, url, title, citedText }

/-- A text with citations. A given text comes before a length. -/
def citedText? (value : Json) : Option Step := do
  let field ← Record.view? ["text", "length", "citations"] value
  let text ← Record.optional asText? (field "text")
  let length ← Record.optional some (field "length")
  let citations ← Record.withDefault [] (Record.list citation?) (field "citations")
  match text, length with
  | some text, _ => return .cited { body := .literal text, citations }
  | none, some length => return .cited { body := .filler (← wordCount? length), citations }
  | none, none => none

/-! ## Steps -/

/-- The length in an object. -/
def length? (value : Json) : Option Nat :=
  (value.get? "length").bind wordCount?

/-- The names of the parameters to echo. -/
def paramNames? (value : Json) : Option (List String) := do
  let field ← Record.view? ["fields"] value
  Record.withDefault [] (Record.list asText?) (field "fields")

/-- The step of an entry of the given kind, at a position among the entries; `lastUse` is the identifier
of the last use of a provider's tool before it. -/
def stepOf? (seed : String) (position : Nat) (lastUse : Option String) (kind : String)
    (value : Json) : Option Step :=
  match kind with
  | "text_message" => (length? value).map .filler
  | "text" => (asText? value).map .literal
  | "tool_call" => (calls? value).bind (toolCalls? seed position)
  | "system_prompt_echo" => some (.echo .systemPrompt)
  | "tools_list" => some (.echo .toolsList)
  | "request_url_echo" => some (.echo .requestUrl)
  | "request_headers_echo" => some (.echo .requestHeaders)
  | "request_params_echo" => (paramNames? value).map fun names => .echo (.requestParams names)
  | "server_tool_use" => serverToolUse? seed position value
  | "server_tool_result" => serverToolResult? seed lastUse value
  | "text_with_citations" => citedText? value
  | _ => none

/-- The step of an entry: an object with one field, which names the kind. -/
def step? (seed : String) (position : Nat) (lastUse : Option String) : Json → Option Step
  | .obj [(kind, value)] => stepOf? seed position lastUse kind value
  | _ => none

/-- The steps of the entries from a position on. -/
def stepsFrom (seed : String) : Nat → Option String → List Json → List Step
  | _, _, [] => []
  | position, lastUse, entry :: entries =>
    match step? seed position lastUse entry with
    | none => stepsFrom seed (position + 1) lastUse entries
    | some step => step :: stepsFrom seed (position + 1) (step.serverToolId?.or lastUse) entries

/-! ## Plans -/

/-- The parts of an instruction. -/
structure Parts where
  id : Option Json
  message : Option String
  reasoning : Option Nat
  entries : List Json

/-- The length of a reasoning record; a record whose length is no number of words has none. -/
def reasoning? (value : Json) : Option (Option Nat) := do
  let field ← Record.view? ["length"] value
  return (field "length").bind wordCount?

def parts? (value : Json) : Option Parts := do
  let field ← Record.view? ["id", "id_message", "reasoning", "messages"] value
  let id ← Record.optional some (field "id")
  let message ← Record.optional asText? (field "id_message")
  let reasoning ← Record.optional reasoning? (field "reasoning")
  let entries ← Record.withDefault [] asItems? (field "messages")
  return { id, message, reasoning := reasoning.join, entries }

/-- The name that an identifier gives: text that is not empty, or a number. -/
def idLabel? : Json → Option String
  | .str text => nonempty? (some text)
  | .num n => some (numberText n)
  | _ => none

/-- The name of the instruction at a position of a script. -/
def Parts.label (parts : Parts) (index : Nat) : String :=
  ((nonempty? parts.message).or (parts.id.bind idLabel?)).getD ("instruction-" ++ Text.natText index)

/-- What the identifiers of an instruction are made from. Names may repeat; positions do not. -/
def seed (scope : String) (index : Nat) (label : String) : String :=
  scope ++ "/" ++ Text.natText index ++ "/" ++ label

/-- The plan of the instruction at a position of a script. -/
def plan? (scope : String) (index : Nat) (value : Json) : Option Plan := do
  let parts ← parts? value
  let label := parts.label index
  let steps := stepsFrom (seed scope index label) 0 none parts.entries
  if steps.isEmpty && parts.reasoning.getD 0 = 0 then none
  else some { label, reasoning := parts.reasoning, steps }

/-- The instructions of a document: those of its list, or the document itself. -/
def instructions? (document : Json) : Option (List Json) := do
  let fields ← document.asFields?
  match lookup "instruction_chain" fields with
  | some (.arr entries) => some entries
  | some _ => none
  | none => some [document]

/-- The plans of the instructions, each at its position. -/
def plansOf (scope : String) (instructions : List Json) : List Plan :=
  instructions.zipIdx.filterMap fun (value, index) => plan? scope index value

/-- The plans of a document, if there is one. -/
def plans? (scope : String) (document : Json) : Option (List Plan) := do
  match plansOf scope (← instructions? document) with
  | [] => none
  | plans => some plans

end ScriptedChat.Instruction
