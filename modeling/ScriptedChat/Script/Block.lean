import ScriptedChat.Json.Reader
import ScriptedChat.Script.Instruction
import ScriptedChat.Text.Search

/-!
# Scripts in message texts

A script stands between two sentinels in the text of a message, whatever stands around it. Between the
sentinels it may be fenced as a code block, and blanks around it do not count.

* `Script.opening`, `Script.closing`: the sentinels.
* `Script.block?`: what stands between the first opening sentinel and the next closing one.
* `Script.plans?`: the plans of the script in a text.
* `Script.single?`: the first plan of the script in a text, or of a text that is a script as a whole.

The simulator's `extract_block`, `parse_chain_in` and `parse_legacy_in` are `Script.block?`,
`Script.plans?` and `Script.single?`.
-/

namespace ScriptedChat.Script

/-- The sentinel before a script. -/
def opening : List Char := "<mock-llm-instructions>".toList

/-- The sentinel after a script. -/
def closing : List Char := "</mock-llm-instructions>".toList

/-- The mark of a code block. -/
def fence : List Char := ['\x60', '\x60', '\x60']

/-- The mark of a code block of JSON. -/
def jsonFence : List Char := fence ++ ['j', 's', 'o', 'n']

/-- A text without the fences at its beginning. -/
def dropFrontFences : List Char → List Char
  | '\x60' :: '\x60' :: '\x60' :: text => dropFrontFences text
  | text => text

/-- A text without the fences at its end. A fence reads the same backwards. -/
def dropFences (text : List Char) : List Char :=
  (dropFrontFences text.reverse).reverse

/-- The content of a code block; a text that is none stays as it is. -/
def unfence (text : List Char) : List Char :=
  match Text.afterFront? jsonFence text <|> Text.afterFront? fence text with
  | some inner => dropFences (Text.trimEnd inner)
  | none => text

/-- What stands between the sentinels. -/
def block? (text : List Char) : Option (List Char) := do
  let (_, rest) ← Text.cutAt? opening text
  let (body, _) ← Text.cutAt? closing rest
  return Text.trim (unfence (Text.trim body))

/-- The JSON value of a text, if it is one. -/
def document? (text : List Char) : Option Json :=
  (Json.read (Utf8.encode text)).toOption

/-- The plans of the script in a text. Their identifiers depend on the scope. -/
def plans? (scope : String) (text : String) : Option (List Plan) := do
  let body ← block? text.toList
  Instruction.plans? scope (← document? body)

/-- The plans of a text that is a script as a whole. -/
def bare? (scope : String) (text : String) : Option (List Plan) := do
  let body := Text.trim text.toList
  if body.head? = some '\x7b' then Instruction.plans? scope (← document? body) else none

/-- The first plan of the script in a text, or of the text that is a script. -/
def single? (scope : String) (text : String) : Option Plan :=
  match plans? scope text with
  | some plans => plans.head?
  | none => (bare? scope text).bind List.head?

end ScriptedChat.Script
