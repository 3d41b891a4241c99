import ScriptedChat.Failure
import ScriptedChat.Json.Printer
import ScriptedChat.Settings.Fields
import ScriptedChat.Settings.Layers
import ScriptedChat.Yaml.Document
import ScriptedChat.Yaml.Printer

/-!
# Settings in a YAML file

A YAML file that holds all settings is read in version 1.1 and strictly. Every scalar is a text as it
stands there; numbers and truth values are plain scalars, or literal ones with the tag of their kind.

* `nodeSource`: how the nodes of a document are understood.
* `ofYaml`: the settings in a YAML file.
* `toYaml`: settings as a YAML file.

The simulator's `from_file` and `save_to_file` read and write as `ofYaml` and `toYaml` do.
-/

namespace ScriptedChat.Settings

open Yaml (Node)

/-! ## Reading -/

/-- The node that stands where a node is written: an alias stands for another one. -/
def target (document : Node) : Node → Option Node
  | .alias anchor => document.marked? anchor
  | node => some node

/-- The text of a scalar. -/
def scalarText? : Node → Option String
  | .scalar _ _ text => some text
  | _ => none

/-- The text of a scalar that can be a value of the given kind. -/
def kindText? (kind : String) : Node → Option String
  | .scalar _ .plain text => some text
  | .scalar properties .literal text =>
    if properties.tag.any (·.name = Yaml.standardTags ++ kind) then some text else none
  | _ => none

/-- The names and values in a mapping, if all names are texts and none of the given names comes twice. -/
def namedNodes? (document : Node) (names : List String) :
    List (Node × Node) → Option (List (String × Node))
  | [] => some []
  | (name, value) :: fields => do
    let name ← (target document name).bind scalarText?
    let others ← namedNodes? document names fields
    if names.contains name && (others.lookup name).isSome then none
    else return (name, value) :: others

/-- The fields of a mapping; a plain scalar without a text is an empty mapping. -/
def nodeFields? (document : Node) (names : List String) : Node → Option (String → Option Node)
  | .mapping _ fields =>
    (namedNodes? document names fields).map fun fields name => fields.lookup name
  | .scalar _ .plain "" => some fun _ => none
  | _ => none

/-- Whether a node leaves a setting without a value. A tag says that there is a value, unless it is that of
null, which the node must then be. -/
def nodeIsAbsent? : Node → Option Bool
  | .scalar properties .plain text =>
    match properties.tag with
    | none => some (text = "" || Yaml.isNull text)
    | some tag =>
      if tag.name ≠ Yaml.standardTags ++ "null" then some false
      else if Yaml.isNull text then some true
      else none
  | _ => some false

/-- How the nodes of a document are understood. -/
def nodeSource (document : Node) : SettingsSource Node where
  fields? names node := (target document node).bind (nodeFields? document names)
  text? node := (target document node).bind scalarText?
  flag? node := ((target document node).bind (kindText? "bool")).bind Yaml.flag?
  number? node := ((target document node).bind (kindText? "int")).bind Yaml.natural?
  isAbsent? node := (target document node).bind nodeIsAbsent?

/-- The settings in the text of a YAML file. -/
def ofYaml (text : String) : Except Failure Settings :=
  let settings? := do
    let document := (← Yaml.document? .v11 text).getD .empty
    (nodeSource document).settings? document
  match settings? with
  | some settings => check settings
  | none => .error (.yaml "these are no settings")

/-! ## Writing -/

/-- A setting as it stands in a YAML file, with the line end after it. -/
def yamlValue : Json → String
  | .str text => Yaml.scalar text
  | value => value.compact ++ "\n"

/-- A section as it stands in a YAML file. -/
def yamlSection (name : String) (fields : List (String × Json)) : String :=
  name ++ ":\n" ++ String.join (fields.map fun (field, value) =>
    "  " ++ field ++ ": " ++ yamlValue value)

/-- Settings as a YAML file. -/
def toYaml (settings : Settings) : String :=
  String.join (settings.sections.map fun (name, fields) => yamlSection name fields)

end ScriptedChat.Settings
