import ScriptedChat.Filler
import ScriptedChat.Script.Plan
import ScriptedChat.Settings.Basic

/-!
# What both kinds of answer share

A plan can be shown as a chat completion or as a message. Both show the same texts and carry the same
marks.

* `Stamp`: the values that an answer carries besides the plan.
* `Plan.reasoningText?`: the reasoning before the first step.
* `Echo.placeholder`, `CitedBody.text`: texts that both kinds of answer show alike.

The simulator's `ResponseMeta` is `Stamp`.
-/

namespace ScriptedChat

/-- The values that an answer carries besides the plan. -/
structure Stamp where
  id : String
  model : String
  /-- seconds since the beginning of 1970 -/
  created : Int
  usage : UsageSettings
  /-- whether the usage is asked for at the end of a stream of chunks -/
  includeUsage : Bool
  deriving Repr, Inhabited

/-- The reasoning before the first step; none for a length of zero. -/
def Plan.reasoningText? (plan : Plan) : Option String :=
  (plan.reasoning.filter (0 < ·)).map fillerText

/-- The text that stands for an echo that has not been resolved. -/
def Echo.placeholder (echo : Echo) : String :=
  "[" ++ echo.marker ++ "]"

/-- The text that citations belong to. -/
def CitedBody.text : CitedBody → String
  | .literal text => text
  | .filler length => fillerText length

end ScriptedChat
