import ScriptedChat.Binary64.Shortest
import ScriptedChat.Failure
import ScriptedChat.Settings.Environment
import ScriptedChat.Settings.Fields
import ScriptedChat.Settings.Tree

/-!
# Settings from layers

The settings in effect are the built-in ones with a file over them and the environment over both. Values
are converted generously to the kind of their field, since a layer does not know the kinds of fields.

* `looseText?`, `looseFlag?`, `looseNumber?`: the conversions.
* `check`: settings, if they are usable.
* `layered`: the settings in effect.

The simulator's `load_layered` is `layered`, with `check` for its `validate`.
-/

namespace ScriptedChat.Settings

/-! ## Conversions -/

/-- Floating-point numbers are written with all their digits and without an exponent. -/
def realLayout : Binary64.Layout where
  plain := none
  wholeFraction := false
  tieUp := true

/-- The text that a value stands for. Numbers and truth values are written out. -/
def looseText? : Json → Option String
  | .str text => some text
  | .bool true => some "true"
  | .bool false => some "false"
  | .num (.int n) => some (String.ofList (Text.decimalInt n))
  | .num (.real x) => some (String.ofList (Binary64.render realLayout x))
  | _ => none

/-- A text in lower case. -/
def lowerCase (text : String) : String :=
  String.ofList (text.toList.map Char.toLower)

/-- The truth value that a word stands for. -/
def wordFlag? (text : String) : Option Bool :=
  if ["true", "on", "yes"].contains (lowerCase text) then some true
  else if ["false", "off", "no"].contains (lowerCase text) then some false
  else none

/-- The truth value that a value stands for. -/
def looseFlag? : Json → Option Bool
  | .bool b => some b
  | .num (.int n) => some (n ≠ 0)
  | .num (.real x) => some (! x.isZero)
  | .str "1" => some true
  | .str "0" => some false
  | .str text => wordFlag? text
  | _ => none

/-- The whole number of 64 bits that is nearest to a floating-point number. -/
def nearestWord (x : Binary64) : Nat :=
  if x.isNaN then 0
  else if x.isInfinite then if x.isNegative then 0 else Text.maxUInt64.toNat
  else min x.round.toNat Text.maxUInt64.toNat

/-- The natural number that a text denotes. -/
def textNumber? (text : String) : Option Nat :=
  match text.toList with
  | '+' :: digits => Text.readNat? digits
  | digits => Text.readNat? digits

/-- The natural number that a value stands for. -/
def looseNumber? : Json → Option Nat
  | .num (.int n) => if n < 0 then none else some n.toNat
  | .num (.real x) => some (nearestWord x)
  | .bool b => some (if b then 1 else 0)
  | .str text =>
    match wordFlag? text with
    | some b => some (if b then 1 else 0)
    | none => textNumber? text
  | _ => none

/-- The fields of a table, or of an array, whose superfluous items are ignored. -/
def looseFields? (names : List String) : Json → Option (String → Option Json)
  | .obj fields => some fun name => Json.lookup name fields
  | .arr items => some (SettingsSource.inOrder names items)
  | _ => none

/-- How the values of layers are understood. -/
def looseSource : SettingsSource Json where
  fields? := looseFields?
  text? := looseText?
  flag? := looseFlag?
  number? := looseNumber?
  isAbsent? value := some (isNull value)

/-! ## Settings in effect -/

/-- Settings, if they are usable. -/
def check (settings : Settings) : Except Failure Settings :=
  match settings.problem? with
  | some problem => .error (.settings problem)
  | none => .ok settings

/-- The built-in settings with the layers of a file and of the environment over them. -/
def tree (file : List (String × Json)) (environment : List (String × String)) : Json :=
  layOver (layOver (({} : Settings).toJson) file) (environmentLayer environment)

/-- The settings in effect, given what a file says and the environment. -/
def layered (file : List (String × Json)) (environment : List (String × String)) :
    Except Failure Settings :=
  match looseSource.settings? (tree file environment) with
  | some settings => check settings
  | none => .error (.settingsSource "a value does not fit its setting")

end ScriptedChat.Settings
