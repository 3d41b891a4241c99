import ScriptedChat.Proofs.Completion.Agreement
import ScriptedChat.Proofs.Completion.Grammar
import ScriptedChat.Proofs.Message.Content

/-!
# Both forms tell the same story

One plan is answered as a chat completion or as a message, and a client that has
read either knows the same calls of its tools, the same reasoning, the same
reason to stop and the same texts.  Only a provider's tools are shown in two
ways: as blocks of a message with a count of the searches, and as text in a
completion.

* `SameCall`, `SameStory` — what the two clients agree on;
* `sameStory_shown` — the answers to a plan agree;
* `documents_tell_same_story` — so do its documents, as they are read.
-/

namespace ScriptedChat

/-- A call of a tool, and the block that shows it in a message. -/
structure SameCall (call : ToolCall) (block : Json) : Prop where
  id : block.getText? "id" = some (Message.toolUseId call.id)
  name : block.getText? "name" = some call.name
  input : block.get? "input" = some (Message.toolInput call.arguments)

theorem sameCall_toolUseBlock (call : ToolCall) :
    SameCall call (Message.toolUseBlock call).toJson where
  id := by
    simp [Message.toolUseBlock, Message.Block.toJson, Message.useJson, Json.getText?, Json.asText?]
  name := by
    simp [Message.toolUseBlock, Message.Block.toJson, Message.useJson, Json.getText?, Json.asText?]
  input := by simp [Message.toolUseBlock, Message.Block.toJson, Message.useJson]

theorem sameCalls (calls : List ToolCall) :
    List.Forall₂ SameCall calls (calls.map fun call => (Message.toolUseBlock call).toJson) := by
  rw [List.forall₂_map_right_iff, List.forall₂_same]
  exact fun call _ => sameCall_toolUseBlock call

/-- What is said about a number of searches of the web: nothing if there were none. -/
def searchesSaid (n : Nat) : Option Json :=
  if n = 0 then none else some (.object [("web_search_requests", .nat n)])

/-- A completion and a message tell the same of a plan. -/
structure SameStory (plan : Plan) (completion : Completion.Answer) (message : Message.Answer) :
    Prop where
  /-- the calls of the completion are those of the plan, and the message shows them in that order -/
  calls : completion.reply.calls = plan.calls
  toolUses : List.Forall₂ SameCall completion.reply.calls
    (Message.ofType "tool_use" message.content)
  finishReason : completion.finishReason = "tool_calls" ↔ completion.reply.calls ≠ []
  stopReason : message.stopReason = "tool_use" ↔ completion.reply.calls ≠ []
  /-- the completion has a reasoning exactly if the message begins with one -/
  reasoning_iff : completion.reply.reasoning.isSome = true ↔
    ∃ block rest, message.content = block :: rest ∧ block.getText? "type" = some "thinking"
  reasoning_text : ∀ block rest, message.content = block :: rest →
    block.getText? "type" = some "thinking" →
      block.getText? "thinking" = completion.reply.reasoning
  /-- the texts of all steps that show one, with a separator between two of them -/
  content : completion.reply.content = "\n\n".intercalate (Completion.shownTexts plan.steps)
  /-- without a provider's tools these are the texts of the message -/
  texts : (∀ step ∈ plan.steps, step.ofServerTool = false) → ∃ texts,
    List.Forall₂ Message.HasText texts (Message.ofType "text" message.content) ∧
      completion.reply.content = "\n\n".intercalate texts
  searches : message.serverTools = searchesSaid
    ((Message.ofType "server_tool_use" message.content).countP Message.isWebSearch)

/-! ## Reasons to stop -/

theorem finishReason_iff (plan : Plan) :
    Completion.finishReason plan = "tool_calls" ↔ plan.calls ≠ [] := by
  rw [← plan.hasToolCalls_iff, Completion.finishReason]
  by_cases h : plan.hasToolCalls = true
  · simp [h]
  · simp [h]

theorem stopReason_iff (plan : Plan) :
    Message.stopReason plan = "tool_use" ↔ plan.calls ≠ [] := by
  rw [← plan.hasToolCalls_iff, Message.stopReason]
  by_cases h : plan.hasToolCalls = true
  · simp [h]
  · simp [h]

/-! ## Answers and documents -/

theorem toolCalls_render (plan : Plan) : (Completion.render plan).toolCalls = plan.calls :=
  Completion.calls_segments 0 plan.steps

/-- **The answers to a plan tell the same**, whatever their marks are. -/
theorem sameStory_shown (plan : Plan) (stamp other : Stamp) :
    SameStory plan (Completion.shown plan stamp) (Message.shown plan other) where
  calls := toolCalls_render plan
  toolUses := by
    show List.Forall₂ SameCall (Completion.render plan).toolCalls
      (Message.ofType "tool_use" ((Message.blocks plan).map Message.Block.toJson))
    rw [toolCalls_render, Message.ofType_toolUse]
    exact sameCalls plan.calls
  finishReason := by
    show Completion.finishReason plan = "tool_calls" ↔ (Completion.render plan).toolCalls ≠ []
    rw [toolCalls_render]
    exact finishReason_iff plan
  stopReason := by
    show Message.stopReason plan = "tool_use" ↔ (Completion.render plan).toolCalls ≠ []
    rw [toolCalls_render]
    exact stopReason_iff plan
  reasoning_iff := by
    show plan.reasoningText?.isSome = true ↔ ∃ block rest,
      (Message.blocks plan).map Message.Block.toJson = block :: rest ∧
        block.getText? "type" = some "thinking"
    obtain ⟨text, rest, hreasoning, hcontent⟩ | ⟨hnone, hother⟩ := Message.head_content plan
    · rw [hreasoning, hcontent]
      exact iff_of_true rfl ⟨_, rest, rfl, Message.type_toJson (.thinking text)⟩
    · rw [hnone]
      refine iff_of_false nofun ?_
      rintro ⟨block, rest, hcontent, htype⟩
      exact hother block (hcontent ▸ List.mem_cons_self) htype
  reasoning_text := by
    show ∀ block rest, (Message.blocks plan).map Message.Block.toJson = block :: rest →
      block.getText? "type" = some "thinking" →
        block.getText? "thinking" = plan.reasoningText?
    intro block rest hblock htype
    obtain ⟨text, rest, hreasoning, hcontent⟩ | ⟨hnone, hother⟩ := Message.head_content plan
    · rw [hcontent] at hblock
      obtain rfl := (List.cons.inj hblock).1
      simp [hreasoning, Message.thinkingJson, Json.getText?, Json.asText?]
    · exact absurd htype (hother block (hblock ▸ List.mem_cons_self))
  content := Completion.content_render plan
  texts := fun hserver => by
    refine ⟨Completion.shownTexts plan.steps, ?_, Completion.content_render plan⟩
    show List.Forall₂ Message.HasText (Completion.shownTexts plan.steps)
      (Message.ofType "text" ((Message.blocks plan).map Message.Block.toJson))
    rw [Message.ofType_toJson, Message.blocksOf_blocks (by decide)]
    exact Message.texts_stepBlocks hserver
  searches := by
    show (Message.shown plan other).serverTools = searchesSaid
      ((Message.ofType "server_tool_use"
        ((Message.blocks plan).map Message.Block.toJson)).countP Message.isWebSearch)
    rw [Message.countP_isWebSearch]
    rfl

/-- **Both forms tell the same story.**  A chat completion and a message for one plan, read from
their documents, have the same calls in the same order, and end for calls exactly where there are
any; the reasoning of the completion is that with which the message begins; the content is made up
of the texts of the steps, with one separator between two of them, and without a provider's tools
these are the texts of the message; and the message counts the searches that it shows. -/
theorem documents_tell_same_story (plan : Plan) (stamp other : Stamp) :
    ∃ completion message,
      Completion.Answer.ofDocument? (Completion.document plan stamp) = some completion ∧
      Message.Answer.ofDocument? (Message.document plan other) = some message ∧
      SameStory plan completion message :=
  ⟨Completion.shown plan stamp, Message.shown plan other,
    Completion.ofDocument?_document plan stamp, Message.ofDocument?_document plan other,
    sameStory_shown plan stamp other⟩

end ScriptedChat
