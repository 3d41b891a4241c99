import ScriptedChat.CommandLine
import ScriptedChat.Service

/-!
# The program

Reads arguments, the environment and files, and does what the command line asks for. Arguments that are
not well formed end the program with code 2, any other failure with code 1.
-/

namespace ScriptedChat.Main

/-- The names of all environment variables that are settings. -/
def variableNames : List String :=
  ({} : Settings).sections.flatMap fun (name, fields) =>
    fields.map fun (field, _) =>
      String.ofList (("llm_api_sim_" ++ name ++ "__" ++ field).toList.map Char.toUpper)

/-- The settings in the environment. -/
def readVariables : IO (List (String × String)) :=
  variableNames.filterMapM fun name => do
    return (← IO.getEnv name).map fun value => (name, value)

/-- The text of a file, if it can be read. -/
def readFile? (path : String) : IO (Option String) := do
  try return some (← IO.FS.readFile path) catch _ => return none

/-- The files that a path can mean, with their texts. -/
def readFiles (path : Option String) : IO (List (String × String)) := do
  match path with
  | none => return []
  | some path =>
    let names := path :: Settings.formatEndings.filterMap fun (ending, _) => FilePath.withEnding? path ending
    names.filterMapM fun name => do return (← readFile? name).map fun text => (name, text)

/-- The path of the settings that a command names. -/
def configOf : CommandLine.Command → Option String
  | .serve config _ => config
  | .printConfig config => config

/-- Makes the file that takes the log, with the directories above it. -/
def openLog (path : String) : IO Unit := do
  if let some parent := FilePath.parent? path then
    if parent ≠ "" then IO.FS.createDirAll parent
  let _ ← IO.FS.Handle.mk path .append

/-- Does what well-formed arguments ask for. -/
def perform (invocation : CommandLine.Invocation) : IO UInt32 := do
  if let some path := invocation.logFile then openLog path
  let files ← readFiles (configOf invocation.command)
  match invocation.command.run (fun name => files.lookup name) (← readVariables) with
  | .print text => do
    (← IO.getStdout).putStr text
    return 0
  | .serve settings => do
    (← IO.getStderr).putStrLn ("cannot listen on " ++ Service.address settings)
    return 1
  | .failure failure => do
    (← IO.getStderr).putStrLn failure.message
    return 1

end ScriptedChat.Main

def main (arguments : List String) : IO UInt32 := do
  match ScriptedChat.CommandLine.Invocation.read arguments with
  | .error .misuse => do
    (← IO.getStderr).putStr (ScriptedChat.CommandLine.Page.text (.program false))
    return 2
  | .error (.help page) => do
    (← IO.getStdout).putStr page.text
    return 0
  | .ok invocation =>
    try ScriptedChat.Main.perform invocation
    catch error => do
      (← IO.getStderr).putStrLn (toString error)
      return 1
