import ScriptedChat.FilePath
import ScriptedChat.Ini.Reader
import ScriptedChat.Json.Reader
import ScriptedChat.Json5.Reader
import ScriptedChat.Ron.Reader
import ScriptedChat.Settings.Layers
import ScriptedChat.Settings.YamlFile
import ScriptedChat.Toml.Reader
import ScriptedChat.Yaml.Value

/-!
# Files with settings

The ending of a file's name tells its format. As a layer a file is read generously: a number may stand as
a text and a text as a number. A file that is read on its own is YAML, and it is read strictly.

* `Format`: the formats of files, with the endings that stand for them in `formatEndings`.
* `fileLayer?`: the layer that the text of a file stands for.
* `locate?`: the file that a path means, and its format.
* `load`: the settings in effect, with a file where a path is given.
* `loadFile`: the settings in a file that is read on its own.

The simulator's `load` and `from_file` are `load` and `loadFile`.
-/

namespace ScriptedChat.Settings

/-! ## Formats -/

/-- The formats of files. -/
inductive Format where
  | toml
  | json
  | yaml
  | ini
  | ron
  | json5
  deriving DecidableEq, Repr

/-- The endings of file names and the formats that they stand for. -/
def formatEndings : List (String × Format) :=
  [("toml", .toml), ("json", .json), ("yaml", .yaml), ("yml", .yaml), ("ini", .ini), ("ron", .ron),
    ("json5", .json5)]

/-- A text without the mark of the byte order at its beginning. -/
def dropByteOrderMark (text : String) : String :=
  match text.toList with
  | '\uFEFF' :: rest => String.ofList rest
  | _ => text

/-- The layer that the text of a file stands for. -/
def fileLayer? (format : Format) (text : String) : Option (List (String × Json)) := do
  let text := dropByteOrderMark text
  let tree ← match format with
    | .toml => Toml.read? text
    | .json => (Json.readText text).toOption
    | .yaml => Yaml.readTree? text
    | .ini => Ini.read? text
    | .ron => Ron.read? text
    | .json5 => Json5.read? text
  tree.asFields?

/-! ## Files by name -/

/-- The file that a path means, and its format: a file of this name, whose ending must be known, or else a
file with a known ending after it. -/
def locate? (fileText : String → Option String) (path : String) : Option (String × Format) :=
  match fileText path with
  | some text => do
    let format ← formatEndings.lookup (← FilePath.ending? path)
    return (text, format)
  | none =>
    formatEndings.findSome? fun (ending, format) => do
      let text ← fileText (← FilePath.withEnding? path ending)
      return (text, format)

/-- The settings in effect, with a file where a path is given. -/
def load (fileText : String → Option String) (path : Option String)
    (environment : List (String × String)) : Except Failure Settings :=
  match path with
  | none => layered [] environment
  | some path =>
    match (locate? fileText path).bind fun (text, format) => fileLayer? format text with
    | some file => layered file environment
    | none => .error (.settingsSource ("cannot read " ++ path))

/-- The settings in a file that is read on its own. -/
def loadFile (fileText : String → Option String) (path : String) : Except Failure Settings :=
  match fileText path with
  | some text => ofYaml text
  | none => .error (.io ("cannot read " ++ path))

end ScriptedChat.Settings
