import Mathlib.Data.List.Basic
import ScriptedChat.Script.Plan

/-!
# The calls of a plan

* `Plan.calls` — the calls of the client's tools, over all steps and in their order;
* `Plan.hasToolCalls_iff` — the turns that have any;
* `Plan.serverUses` — the uses of a provider's tools;
* `Step.ofServerTool` — the steps that are such a use or its result.
-/

namespace ScriptedChat

/-- The calls of the client's tools in a step. -/
def Step.calls : Step → List ToolCall
  | .toolCalls calls => calls
  | _ => []

/-- The use of a provider's tool in a step, if it is one. -/
def Step.serverUses : Step → List ServerToolUse
  | .serverToolUse use => [use]
  | _ => []

/-- Whether a step is about a provider's tool. -/
def Step.ofServerTool : Step → Bool
  | .serverToolUse _ => true
  | .serverToolResult _ => true
  | _ => false

/-- The calls of the client's tools in a plan. -/
def Plan.calls (plan : Plan) : List ToolCall :=
  plan.steps.flatMap Step.calls

/-- The uses of a provider's tools in a plan. -/
def Plan.serverUses (plan : Plan) : List ServerToolUse :=
  plan.steps.flatMap Step.serverUses

/-- A turn ends with calls exactly where there are any. -/
theorem Plan.hasToolCalls_iff (plan : Plan) : plan.hasToolCalls = true ↔ plan.calls ≠ [] := by
  rw [Plan.hasToolCalls, Plan.calls, List.any_eq_true, ne_eq, List.flatMap_eq_nil_iff, not_forall]
  refine exists_congr fun step => ?_
  rw [Classical.not_imp, and_congr_right_iff]
  intro _
  cases step with
  | toolCalls calls => simp [Step.calls]
  | _ => simp [Step.calls]

end ScriptedChat
