import Mathlib.Data.List.Forall2
import ScriptedChat.Proofs.Completion.Content
import ScriptedChat.Proofs.Message.Agreement
import ScriptedChat.Proofs.Script.Plan

/-!
# The content of a message

The blocks of a message are told apart by their types.  Those of one type, in
their order, are what the plan has of one kind: its calls, its uses of a
provider's tools, and its texts where it has no such tools.

* `ofType`, `blocksOf` — the blocks of one type, written and before;
* `toolUse_stepBlocks`, `serverToolUse_stepBlocks`, `texts_stepBlocks` — those that
  a step has;
* `ofType_toolUse`, `ofType_serverToolUse` — those that a message has;
* `countP_isWebSearch` — the searches of the web;
* `head_content` — what a message begins with.
-/

namespace ScriptedChat.Message

/-- The blocks of a type, in their order. -/
def ofType (type : String) (content : List Json) : List Json :=
  content.filter fun block => block.getText? "type" = some type

/-- The same before the blocks are written. -/
def blocksOf (type : String) (blocks : List Block) : List Block :=
  blocks.filter fun block => block.type = type

theorem ofType_toJson (type : String) (blocks : List Block) :
    ofType type (blocks.map Block.toJson) = (blocksOf type blocks).map Block.toJson := by
  rw [ofType, blocksOf, List.filter_map]
  congr 2
  funext block
  simp [type_toJson]

theorem blocksOf_append (type : String) (blocks more : List Block) :
    blocksOf type (blocks ++ more) = blocksOf type blocks ++ blocksOf type more := by
  simp [blocksOf]

theorem blocksOf_flatMap {α : Type} (type : String) (steps : List α) (f : α → List Block) :
    blocksOf type (steps.flatMap f) = steps.flatMap fun step => blocksOf type (f step) := by
  simp [blocksOf, List.filter_flatMap]

theorem blocksOf_eq_self {type : String} {blocks : List Block}
    (h : ∀ block ∈ blocks, block.type = type) : blocksOf type blocks = blocks := by
  simpa [blocksOf, List.filter_eq_self] using h

theorem blocksOf_eq_nil {type : String} {blocks : List Block}
    (h : ∀ block ∈ blocks, block.type ≠ type) : blocksOf type blocks = [] := by
  simpa [blocksOf, List.filter_eq_nil_iff] using h

/-! ## The blocks of a step -/

/-- The blocks of a text are texts. -/
theorem type_of_mem_textBlocks {text : String} {citations : Option (List Citation)} {block : Block}
    (h : block ∈ textBlocks text citations) : block.type = "text" := by
  rw [textBlocks] at h
  split at h
  · exact absurd h List.not_mem_nil
  · rw [List.mem_singleton.1 h]
    rfl

theorem blocksOf_textBlocks {type : String} (h : "text" ≠ type) (text : String)
    (citations : Option (List Citation)) :
    blocksOf type (textBlocks text citations) = [] := by
  refine blocksOf_eq_nil fun block hmem => ?_
  rw [type_of_mem_textBlocks hmem]
  exact h

theorem blocksOf_serverToolResult {type : String} (h : ¬ "_tool_result".toList <:+ type.toList)
    (result : ServerToolResult) :
    blocksOf type [.serverToolResult result] = [] := by
  refine blocksOf_eq_nil fun block hmem => ?_
  rw [List.mem_singleton.1 hmem]
  exact blockType_ne result h

theorem type_of_mem_calls {calls : List ToolCall} {block : Block}
    (h : block ∈ calls.map toolUseBlock) : block.type = "tool_use" := by
  obtain ⟨call, _, rfl⟩ := List.mem_map.1 h
  rfl

theorem blocksOf_calls {type : String} (h : "tool_use" ≠ type) (calls : List ToolCall) :
    blocksOf type (calls.map toolUseBlock) = [] := by
  refine blocksOf_eq_nil fun block hmem => ?_
  rw [type_of_mem_calls hmem]
  exact h

/-- No step has a block of reasoning. -/
theorem type_of_mem_stepBlocks {step : Step} {block : Block} (h : block ∈ stepBlocks step) :
    block.type ≠ "thinking" := by
  intro htype
  cases step with
  | toolCalls calls => exact absurd ((type_of_mem_calls h).symm.trans htype) (by decide)
  | serverToolUse use =>
    rw [List.mem_singleton.1 h] at htype
    exact absurd htype (by decide : "server_tool_use" ≠ "thinking")
  | serverToolResult result =>
    rw [List.mem_singleton.1 h] at htype
    exact blockType_ne result (by decide) htype
  | _ => exact absurd ((type_of_mem_textBlocks h).symm.trans htype) (by decide)

/-- The uses of tools that a step has are its calls. -/
theorem toolUse_stepBlocks (step : Step) :
    blocksOf "tool_use" (stepBlocks step) = step.calls.map toolUseBlock := by
  cases step with
  | toolCalls calls => exact blocksOf_eq_self fun block hmem => type_of_mem_calls hmem
  | serverToolUse use => rfl
  | serverToolResult result => exact blocksOf_serverToolResult (by decide) result
  | _ => exact blocksOf_textBlocks (by decide) _ _

theorem serverToolUse_stepBlocks (step : Step) :
    blocksOf "server_tool_use" (stepBlocks step) = step.serverUses.map .serverToolUse := by
  cases step with
  | toolCalls calls => exact blocksOf_calls (by decide) calls
  | serverToolUse use => rfl
  | serverToolResult result => exact blocksOf_serverToolResult (by decide) result
  | _ => exact blocksOf_textBlocks (by decide) _ _

/-- The text of a step that has nothing to do with a provider's tools is the text of its blocks. -/
theorem stepBlocks_of_contentOf? {step : Step} {body : String} {citations : List Citation}
    (hserver : step.ofServerTool = false)
    (h : Completion.contentOf? step = some (body, citations)) :
    ∃ cited, stepBlocks step = textBlocks body cited := by
  cases step with
  | toolCalls calls => exact absurd h nofun
  | serverToolUse use => exact absurd hserver nofun
  | serverToolResult result => exact absurd hserver nofun
  | _ =>
    cases h
    exact ⟨_, rfl⟩

/-! ## The blocks of a plan -/

/-- Only the first block can be one of reasoning, so the blocks of any other type come from the
steps. -/
theorem blocksOf_blocks {type : String} (h : "thinking" ≠ type) (plan : Plan) :
    blocksOf type (blocks plan) = blocksOf type (plan.steps.flatMap stepBlocks) := by
  have hthinking : blocksOf type (thinkingBlocks plan) = [] := by
    refine blocksOf_eq_nil fun block hmem => ?_
    obtain ⟨text, _, rfl⟩ := Option.map_eq_some_iff.1 (Option.mem_toList.1 hmem)
    exact h
  rw [blocks, blocksOf_append, hthinking, List.nil_append]

theorem toolUse_blocks (plan : Plan) :
    blocksOf "tool_use" (blocks plan) = plan.calls.map toolUseBlock := by
  rw [blocksOf_blocks (by decide), blocksOf_flatMap, Plan.calls, List.map_flatMap]
  exact congrArg plan.steps.flatMap (funext toolUse_stepBlocks)

theorem serverToolUse_blocks (plan : Plan) :
    blocksOf "server_tool_use" (blocks plan) = plan.serverUses.map .serverToolUse := by
  rw [blocksOf_blocks (by decide), blocksOf_flatMap, Plan.serverUses, List.map_flatMap]
  exact congrArg plan.steps.flatMap (funext serverToolUse_stepBlocks)

/-- A block in JSON that has a text. -/
def HasText (text : String) (block : Json) : Prop :=
  block.getText? "text" = some text

theorem hasText_textJson (text : String) (citations : Option (List Citation)) :
    HasText text (textJson text citations) := by
  cases citations <;> simp [HasText, textJson, citationsField, Json.getText?, Json.asText?]

/-- **The texts of steps are the texts of their blocks**, empty ones in neither. -/
theorem texts_stepBlocks {steps : List Step} (h : ∀ step ∈ steps, step.ofServerTool = false) :
    List.Forall₂ HasText (Completion.shownTexts steps)
      ((blocksOf "text" (steps.flatMap stepBlocks)).map Block.toJson) := by
  induction steps with
  | nil => exact .nil
  | cons step steps ih =>
    obtain ⟨hstep, hsteps⟩ := List.forall_mem_cons.1 h
    rw [List.flatMap_cons, blocksOf_append, List.map_append]
    rcases Completion.calls_or_content step with ⟨calls, rfl⟩ | ⟨body, citations, hcontent⟩
    · have hcalls : blocksOf "text" (stepBlocks (.toolCalls calls)) = [] :=
        blocksOf_calls (by decide) calls
      rw [Completion.shownTexts_calls, hcalls]
      exact ih hsteps
    · obtain ⟨cited, hblocks⟩ := stepBlocks_of_contentOf? hstep hcontent
      rw [hblocks]
      by_cases hbody : body = ""
      · subst hbody
        rw [Completion.shownTexts_empty hcontent]
        exact ih hsteps
      · rw [Completion.shownTexts_text hcontent hbody, textBlocks, if_neg hbody]
        exact .cons (hasText_textJson body cited) (ih hsteps)

/-! ## The content that is shown -/

/-- **The uses of tools in a message are the calls of the plan.** -/
theorem ofType_toolUse (plan : Plan) :
    ofType "tool_use" ((blocks plan).map Block.toJson) =
      plan.calls.map fun call => (toolUseBlock call).toJson := by
  rw [ofType_toJson, toolUse_blocks, List.map_map]
  rfl

theorem ofType_serverToolUse (plan : Plan) :
    ofType "server_tool_use" ((blocks plan).map Block.toJson) =
      plan.serverUses.map fun use => (Block.serverToolUse use).toJson := by
  rw [ofType_toJson, serverToolUse_blocks, List.map_map]
  rfl

theorem webSearches_eq (plan : Plan) :
    webSearches plan = plan.serverUses.countP fun use => use.name == "web_search" := by
  rw [webSearches, Plan.serverUses]
  induction plan.steps with
  | nil => rfl
  | cons step steps ih =>
    rw [List.countP_cons, List.flatMap_cons, List.countP_append, ih, Nat.add_comm]
    cases step <;> simp [Step.serverUses, List.countP_cons]

/-- A block for a search of the web. -/
def isWebSearch (block : Json) : Bool :=
  block.getText? "name" = some "web_search"

/-- **The searches of a plan are the blocks for searches.** -/
theorem countP_isWebSearch (plan : Plan) :
    (ofType "server_tool_use" ((blocks plan).map Block.toJson)).countP isWebSearch =
      webSearches plan := by
  rw [ofType_serverToolUse, webSearches_eq, List.countP_map]
  refine List.countP_congr fun use _ => ?_
  simp [isWebSearch, Block.toJson, useJson, Json.getText?, Json.asText?]

/-- A message begins with the reasoning, if there is one. -/
theorem head_content (plan : Plan) :
    (∃ text rest, plan.reasoningText? = some text ∧
        (blocks plan).map Block.toJson = thinkingJson text (thinkingSignature text) :: rest) ∨
      (plan.reasoningText? = none ∧
        ∀ block ∈ (blocks plan).map Block.toJson, block.getText? "type" ≠ some "thinking") := by
  cases hreasoning : plan.reasoningText? with
  | some text =>
    refine .inl ⟨text, (plan.steps.flatMap stepBlocks).map Block.toJson, rfl, ?_⟩
    rw [blocks, thinkingBlocks, hreasoning]
    rfl
  | none =>
    refine .inr ⟨rfl, fun block hmem htype => ?_⟩
    obtain ⟨source, hsource, rfl⟩ := List.mem_map.1 hmem
    rw [blocks, thinkingBlocks, hreasoning] at hsource
    obtain ⟨step, _, hstep⟩ := List.mem_flatMap.1 hsource
    rw [type_toJson] at htype
    exact type_of_mem_stepBlocks hstep (Option.some.inj htype)

end ScriptedChat.Message
