/-!
# Log levels

* `LogLevel`: how much is logged.
* `LogLevel.ofName?`: the level that a name on the command line stands for.
* `LogLevel.directive`: the filter that a level stands for.

The simulator's `CliLogLevel` and `default_directive` are `LogLevel` and `LogLevel.directive`.
-/

namespace ScriptedChat

/-- How much is logged. -/
inductive LogLevel where
  | error
  | warn
  | info
  | debug
  | trace
  deriving DecidableEq, Repr, Inhabited

namespace LogLevel

/-- The level with the given name. -/
def ofName? : String → Option LogLevel
  | "error" => some .error
  | "warn" => some .warn
  | "info" => some .info
  | "debug" => some .debug
  | "trace" => some .trace
  | _ => none

/-- The name of a level in a filter. -/
def label : LogLevel → String
  | .error => "ERROR"
  | .warn => "WARN"
  | .info => "INFO"
  | .debug => "DEBUG"
  | .trace => "TRACE"

/-- The filter that lets a level pass, for the simulator and for what it says about requests. -/
def directive (level : LogLevel) : String :=
  level.label ++ ",llm_api_sim=" ++ level.label ++ ",tower_http=" ++ level.label

end LogLevel

end ScriptedChat
