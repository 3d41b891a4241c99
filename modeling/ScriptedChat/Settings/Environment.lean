import ScriptedChat.Binary64.Decimal
import ScriptedChat.Json.Basic
import ScriptedChat.Text.Search

/-!
# Settings in the environment

An environment variable is a setting if its name begins with `LLM_API_SIM_`, in any case of letters. The
rest of the name is the path of the setting, with two underscores between section and field.

* `guess`: the value that a text stands for: a truth value, a whole number, a decimal, or the text.
* `key?`: the key of the setting that a variable names.
* `environmentLayer`: the settings in the environment.
-/

namespace ScriptedChat.Settings

/-- The beginning of the names of all variables that are settings, in lower case. -/
def variableMark : List Char := "llm_api_sim_".toList

/-- A text with points for double underscores. -/
def pointsForUnderscores : List Char → List Char
  | '_' :: '_' :: text => '.' :: pointsForUnderscores text
  | c :: text => c :: pointsForUnderscores text
  | [] => []

/-- A letter in lower case. Of the letters beyond ASCII only the sign for kelvin has a small letter that
can stand in the name of a setting. -/
def smallLetter (c : Char) : Char :=
  if c = '\u212A' then 'k' else c.toLower

/-- The key of the setting that a variable names. -/
def key? (name : String) : Option String :=
  (Text.afterFront? variableMark (name.toList.map smallLetter)).map fun rest =>
    String.ofList (pointsForUnderscores rest)

/-- The value that a text stands for. -/
def guess (text : String) : Json :=
  let chars := text.toList
  let lower := chars.map Char.toLower
  if lower = "true".toList then .bool true
  else if lower = "false".toList then .bool false
  else
    match Text.readInt64? chars, Binary64.readDecimal? chars with
    | some n, _ => .int n
    | none, some x => .num (.real x)
    | none, none => .str text

/-- The settings in the environment, as keys with their values. -/
def environmentLayer (environment : List (String × String)) : List (String × Json) :=
  environment.filterMap fun (name, value) => (key? name).map fun key => (key, guess value)

end ScriptedChat.Settings
