import ScriptedChat.CommandLine.Help
import ScriptedChat.LogLevel
import ScriptedChat.Settings.File

/-!
# The command line

The program serves the endpoints, prints the settings in effect, or gives help. Parameters about logging
stand before the name of the command, all other parameters after it. Two hyphens alone may end the
parameters of a command.

* `Invocation`, `Invocation.read`: what arguments ask for.
* `Overrides.apply`: settings with those of the command line over them.
* `Outcome`, `Command.run`: what comes of a command.

The simulator's `Cli` and `Commands` are `Invocation`.
-/

namespace ScriptedChat.CommandLine

/-! ## Invocations -/

/-- Settings on the command line. -/
structure Overrides where
  host : Option String := none
  port : Option UInt16 := none
  wordsPerChunk : Option UInt64 := none
  chunkDelay : Option UInt64 := none
  completionModel : Option String := none
  messageModel : Option String := none
  deriving DecidableEq, Repr, Inhabited

/-- What the program is to do. -/
inductive Command where
  | serve (config : Option String) (overrides : Overrides)
  | printConfig (config : Option String)
  deriving DecidableEq, Repr

/-- What arguments ask for. -/
structure Invocation where
  logLevel : LogLevel
  /-- the file that takes the log -/
  logFile : Option String
  command : Command
  deriving DecidableEq, Repr

/-- The number that is the value of a parameter. -/
def numberOf? (values : Values) (name : String) : Option Nat :=
  (values.lookup name).bind Settings.textNumber?

/-- The settings among the values of parameters. -/
def Overrides.ofValues (values : Values) : Overrides where
  host := values.lookup "host"
  port := (numberOf? values "port").map UInt16.ofNat
  wordsPerChunk := (numberOf? values "words-per-chunk").map UInt64.ofNat
  chunkDelay := (numberOf? values "chunk-delay-ms").map UInt64.ofNat
  completionModel := values.lookup "openai-model"
  messageModel := values.lookup "anthropic-model"

/-- The values of all parameters of a command; no argument may be left over but the mark of their end. -/
def onlyParameters (parameters : List Parameter) (page : Page) (arguments : List String) :
    Except Stop Values := do
  let (progress, rest) ← readParameters parameters (fun _ => page) {} arguments
  if rest = [] || rest = ["--"] then progress.settle else .error .misuse

/-- The page of help that names of commands ask for. -/
def helpOn : List String → Stop
  | [] => .help (.program true)
  | ["serve"] => .help .serve
  | ["print-config"] => .help .printConfig
  | ["help"] => .help .help
  | _ => .misuse

/-- What the name of a command and the arguments after it ask for. -/
def Command.read : List String → Except Stop Command
  | "serve" :: rest => do
    let values ← onlyParameters serveParameters .serve rest
    return .serve (values.lookup "config") (.ofValues values)
  | "print-config" :: rest => do
    let values ← onlyParameters printParameters .printConfig rest
    return .printConfig (values.lookup "config")
  | "help" :: rest => .error (helpOn rest)
  | _ => .error .misuse

/-- What arguments ask for, if they are well formed and do not ask for help. The last value before the
command is looked at after the command. -/
def Invocation.read (arguments : List String) : Except Stop Invocation := do
  let (progress, rest) ← readParameters programParameters .program {} arguments
  let command ← Command.read rest
  let values ← progress.settle
  return {
    logLevel := ((values.lookup "log-level").bind LogLevel.ofName?).getD .info
    logFile := values.lookup "log-file"
    command }

/-! ## Outcomes -/

/-- Settings with those of the command line over them. -/
def Overrides.apply (overrides : Overrides) (settings : Settings) : Settings :=
  { settings with
    server := { settings.server with
      host := overrides.host.getD settings.server.host
      port := overrides.port.getD settings.server.port }
    stream := { settings.stream with
      wordsPerChunk := overrides.wordsPerChunk.getD settings.stream.wordsPerChunk
      chunkDelay := overrides.chunkDelay.getD settings.stream.chunkDelay }
    completion := { settings.completion with
      defaultModel := overrides.completionModel.getD settings.completion.defaultModel }
    message := { settings.message with
      defaultModel := overrides.messageModel.getD settings.message.defaultModel } }

/-- The settings with which the program serves: those in effect must be usable on their own, and again
with the command line over them. -/
def serveSettings (loaded : Except Failure Settings) (overrides : Overrides) :
    Except Failure Settings := do
  Settings.check (overrides.apply (← loaded))

/-- What comes of a command. -/
inductive Outcome where
  | failure (failure : Failure)
  /-- a text is printed -/
  | print (text : String)
  /-- the endpoints are served -/
  | serve (settings : Settings)
  deriving DecidableEq, Repr

/-- What comes of a command. -/
def Command.run (fileText : String → Option String) (environment : List (String × String))
    (command : Command) : Outcome :=
  match command with
  | .serve config overrides =>
    match serveSettings (Settings.load fileText config environment) overrides with
    | .ok settings => .serve settings
    | .error failure => .failure failure
  | .printConfig config =>
    match Settings.load fileText config environment with
    | .ok settings => .print settings.toYaml
    | .error failure => .failure failure

end ScriptedChat.CommandLine
