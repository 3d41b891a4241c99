import ScriptedChat.Json.Reader

/-!
# Failures

Everything that can go wrong while a request is answered, a stream is delivered or settings are loaded.

* `Failure`: the causes.
* `Failure.message`: the wording of each.
* `Failure.status`: the status code with which an endpoint reports it.
* `Failure.isDeclined`: whether an endpoint left the request to others.

The simulator's `Error`, with its `status_code` and `is_declined`, is `Failure`.
-/

namespace ScriptedChat

/-- A cause of failure. -/
inductive Failure where
  | malformedRequest (message : String)
  | unrecognizedEndpoint (method path : String)
  | settings (message : String)
  | streamGeneration (message : String)
  /-- the receiver of a stream has left -/
  | cancelled
  | json (error : Json.ReadError)
  | yaml (message : String)
  | settingsSource (message : String)
  | io (message : String)
  deriving DecidableEq, Repr

namespace Failure

/-- The wording of a failure. -/
def message : Failure → String
  | .malformedRequest message => "Malformed request: " ++ message
  | .unrecognizedEndpoint method path => "No simulated endpoint for " ++ method ++ " " ++ path
  | .settings message => "Configuration error: " ++ message
  | .streamGeneration message => "Stream generation failed: " ++ message
  | .cancelled => "Stream consumer disconnected"
  | .json error => "Serialization error: " ++ error.message
  | .yaml message => "YAML serialization error: " ++ message
  | .settingsSource message => "Configuration source error: " ++ message
  | .io message => "IO error: " ++ message

/-- The status code with which an endpoint reports a failure. -/
def status : Failure → Nat
  | .malformedRequest _ => 400
  | .json _ => 400
  | .unrecognizedEndpoint _ _ => 404
  | _ => 500

/-- Whether an endpoint left the request to others. -/
def isDeclined : Failure → Bool
  | .unrecognizedEndpoint _ _ => true
  | _ => false

end Failure

end ScriptedChat
