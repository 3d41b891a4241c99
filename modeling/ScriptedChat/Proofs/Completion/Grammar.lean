import Mathlib.Data.List.Forall2
import ScriptedChat.Proofs.Completion.Frames
import ScriptedChat.Proofs.Script.Plan

/-!
# The order of chunks

A stream of chunks keeps to a grammar.  The role comes first, then the
reasoning if there is one, then texts and tool calls as the plan has them, the
reason to finish, the usage if it is asked for, and the mark that ends a stream.

* `Carries`, `Adds` — what a chunk says;
* `ReasoningPart`, `ContentPart`, `ChunkStream` — the parts of a stream, told by
  the fields of its chunks alone;
* `contentPart_segmentDeltas` — the segments, by induction: the calls go on with
  the numbers of those before;
* `calls_segments` — the calls of the segments are the calls of the plan;
* `stream_keeps_chunk_grammar` — every stream is one of its plan.
-/

namespace ScriptedChat.Completion

/-! ## The grammar -/

/-- A chunk with one choice, which has the given delta and the given reason to finish. -/
def Carries (delta reason chunk : Json) : Prop :=
  ∃ choice, chunk.get? "choices" = some (.arr [choice]) ∧
    choice.get? "delta" = some delta ∧ choice.get? "finish_reason" = some reason

/-- A chunk that adds to the message and does not finish it. -/
def Adds (chunk delta : Json) : Prop := Carries delta .null chunk

/-- A delta with a fragment of the reasoning. -/
def reasoningDelta (fragment : String) : Json :=
  .object [("reasoning", .str fragment)]

/-- The deltas for a number of words of reasoning: fragments and the details, or nothing at all. -/
inductive ReasoningPart : Nat → List Json → Prop
  | none : ReasoningPart 0 []
  | some {words : Nat} {fragments : List String} (detail : Json) (nonempty : fragments ≠ []) :
    ReasoningPart (words + 1)
      (fragments.map reasoningDelta ++ [.object [("reasoning_details", .arr [detail])]])

/-- A delta with a fragment of the content. -/
def contentDelta (fragment : String) : Json :=
  .object [("content", .str fragment)]

/-- The delta with annotations, if there are any. -/
def annotationDeltas (annotations : List Json) : List Json :=
  if annotations.isEmpty then [] else [.object [("annotations", .arr annotations)]]

/-- The first delta of a tool call. -/
def callDelta (index : Nat) (call : ToolCall) : Json :=
  .object [("tool_calls", .arr [.object
    [("index", .nat index), ("id", .str call.id), ("type", .str "function"),
     ("function", .object [("name", .str call.name), ("arguments", .str "")])]])]

/-- A further delta of a tool call. -/
def argumentDelta (index : Nat) (fragment : String) : Json :=
  .object [("tool_calls", .arr [.object
    [("index", .nat index), ("function", .object [("arguments", .str fragment)])]])]

/-- The deltas after the reasoning.  Texts come in fragments that are not empty, with their
annotations right after them; the given calls come in their order, the first one under the given
number, each with all its deltas together. -/
inductive ContentPart : Nat → List ToolCall → List Json → Prop
  | nil (index : Nat) : ContentPart index [] []
  | content {index : Nat} {calls : List ToolCall} {fragments : List String}
    {deltas : List Json} (annotations : List Json) (nonempty : fragments ≠ [])
    (filled : ∀ fragment ∈ fragments, fragment ≠ "") (rest : ContentPart index calls deltas) :
    ContentPart index calls
      (fragments.map contentDelta ++ (annotationDeltas annotations ++ deltas))
  | call {index : Nat} {call : ToolCall} {calls : List ToolCall} {fragments : List String}
    {deltas : List Json} (filled : ∀ fragment ∈ fragments, fragment ≠ "")
    (whole : String.join fragments = call.arguments)
    (rest : ContentPart (index + 1) calls deltas) :
    ContentPart index (call :: calls)
      (callDelta index call :: (fragments.map (argumentDelta index) ++ deltas))

/-- All deltas of a plan. -/
def PlanDeltas (plan : Plan) (deltas : List Json) : Prop :=
  ∃ reasoning content,
    deltas = .object [("role", .str "assistant"), ("content", .str "")] :: (reasoning ++ content) ∧
    ReasoningPart (plan.reasoning.getD 0) reasoning ∧
    ContentPart 0 plan.calls content

/-- The counters of a usage: those of the settings, and their sum. -/
structure Counts (settings : UsageSettings) (usage : Json) : Prop where
  prompt : usage.get? "prompt_tokens" = some (.nat settings.inputTokens.toNat)
  completion : usage.get? "completion_tokens" = some (.nat settings.outputTokens.toNat)
  total : settings.inputTokens.toNat + settings.outputTokens.toNat < UInt64.size →
    usage.get? "total_tokens" =
      some (.nat (settings.inputTokens.toNat + settings.outputTokens.toNat))

/-- The last chunk of a stream with a usage, none in a stream without one. -/
inductive UsagePart (settings : UsageSettings) : Bool → List Json → Prop
  | none : UsagePart settings false []
  | some {chunk usage : Json} (choices : chunk.get? "choices" = some (.arr []))
    (carries : chunk.get? "usage" = some usage) (counts : Counts settings usage) :
    UsagePart settings true [chunk]

/-- The chunks of a stream for a plan. -/
def ChunkStream (plan : Plan) (stamp : Stamp) (chunks : List Json) : Prop :=
  ∃ additions deltas finish reason usage, chunks = additions ++ finish :: usage ∧
    List.Forall₂ Adds additions deltas ∧ PlanDeltas plan deltas ∧
    Carries (.obj []) (.str reason) finish ∧ UsagePart stamp.usage stamp.includeUsage usage

/-! ## Chunks -/

theorem carries_chunkJson (stamp : Stamp) (delta reason : Json) :
    Carries delta reason (chunkJson stamp [choiceJson delta reason] []) :=
  ⟨choiceJson delta reason, by simp [chunkJson], by simp [choiceJson], by simp [choiceJson]⟩

theorem adds_delta (stamp : Stamp) (delta : Delta) :
    Adds ((Chunk.delta delta).toJson stamp) delta.toJson :=
  carries_chunkJson stamp delta.toJson .null

theorem counts_usageJson (settings : UsageSettings) : Counts settings (usageJson settings) where
  prompt := by simp [usageJson]
  completion := by simp [usageJson]
  total := fun _ => by simp [usageJson, UsageSettings.totalTokens]

theorem usagePart_chunks (stamp : Stamp) :
    UsagePart stamp.usage stamp.includeUsage
      ((if stamp.includeUsage then [Chunk.usage] else []).map (Chunk.toJson stamp)) := by
  cases stamp.includeUsage with
  | false => exact .none
  | true =>
    have hchoices : (Chunk.usage.toJson stamp).get? "choices" = some (.arr []) := by
      simp [Chunk.toJson, chunkJson]
    have husage : (Chunk.usage.toJson stamp).get? "usage" = some (usageJson stamp.usage) := by
      simp [Chunk.toJson, chunkJson]
    exact .some hchoices husage (counts_usageJson stamp.usage)

/-! ## Reasoning -/

/-- **The reasoning, exactly where there are words of it.** -/
theorem reasoningPart_deltas (settings : StreamSettings) (plan : Plan) :
    ReasoningPart (plan.reasoning.getD 0)
      ((reasoningDeltas settings (render plan).reasoning).map Delta.toJson) := by
  cases hwords : plan.reasoning.getD 0 with
  | zero =>
    have hnone : (render plan).reasoning = none := by
      rw [render, Plan.reasoningText?]
      cases hreasoning : plan.reasoning with
      | none => rfl
      | some words =>
        rw [hreasoning, Option.getD_some] at hwords
        rw [hwords]
        rfl
    rw [hnone]
    exact .none
  | succ words =>
    have hsome : (render plan).reasoning = some (fillerText (words + 1)) := by
      rw [render, Plan.reasoningText?]
      cases hreasoning : plan.reasoning with
      | none =>
        rw [hreasoning] at hwords
        exact absurd hwords nofun
      | some count =>
        rw [hreasoning, Option.getD_some] at hwords
        rw [hwords]
        rfl
    have hfragments := Text.wordFragments_ne_nil settings.wordsPerChunk.toNat
      (fillerText_ne_empty (Nat.succ_pos words))
    rw [hsome, reasoningDeltas, List.map_append, List.map_map]
    exact .some (reasoningDetail (fillerText (words + 1))) hfragments

/-! ## Segments -/

/-- A segment whose text is not empty, or a call. -/
def Segment.Filled : Segment → Prop
  | .content text _ => text ≠ ""
  | .toolCall _ => True

theorem filled_segments (written : Nat) (steps : List Step) :
    ∀ segment ∈ segments written steps, segment.Filled := by
  fun_induction segments written steps with
  | case1 written => exact fun segment hmem => absurd hmem List.not_mem_nil
  | case2 written calls steps ih =>
    intro segment hmem
    rcases List.mem_append.1 hmem with hcall | hmem
    · obtain ⟨call, _, rfl⟩ := List.mem_map.1 hcall
      trivial
    · exact ih segment hmem
  | case3 written step steps _ _ ih => exact ih
  | case4 written step steps _ citations _ ih => exact ih
  | case5 written step steps _ body citations _ hbody ih =>
    intro segment hmem
    rcases List.mem_cons.1 hmem with rfl | hmem
    · intro hempty
      exact hbody (String.append_eq_empty_iff.1 hempty).2
    · exact ih segment hmem

/-- **Calls are shown in the order of the plan.** -/
theorem calls_segments (written : Nat) (steps : List Step) :
    (segments written steps).filterMap Segment.call? = steps.flatMap Step.calls := by
  have hnone : ∀ {step : Step}, (∀ calls, step = .toolCalls calls → False) → step.calls = [] := by
    intro step h
    cases step with
    | toolCalls calls => exact absurd rfl (h calls)
    | _ => rfl
  fun_induction segments written steps with
  | case1 written => rfl
  | case2 written calls steps ih =>
    have hcalls : (calls.map Segment.toolCall).filterMap Segment.call? = calls := by
      rw [List.filterMap_map]
      exact List.filterMap_some
    rw [List.filterMap_append, hcalls, ih, List.flatMap_cons, Step.calls]
  | case3 written step steps h _ ih => rw [ih, List.flatMap_cons, hnone h, List.nil_append]
  | case4 written step steps h citations _ ih => rw [ih, List.flatMap_cons, hnone h, List.nil_append]
  | case5 written step steps h body citations _ hbody ih =>
    rw [contentSegment, List.filterMap_cons, Segment.call?, ih, List.flatMap_cons, hnone h,
      List.nil_append]

theorem annotationDeltas_eq (references : List Reference) :
    annotationDeltas (references.map Reference.toJson) =
      (if references.isEmpty then [] else [Delta.references references]).map Delta.toJson := by
  cases references with
  | nil => rfl
  | cons reference references => rfl

/-- **Segments in any number.** -/
theorem contentPart_segmentDeltas (settings : StreamSettings) {segments : List Segment}
    (h : ∀ segment ∈ segments, segment.Filled) (index : Nat) :
    ContentPart index (segments.filterMap Segment.call?)
      ((segmentDeltas settings index segments).map Delta.toJson) := by
  induction segments generalizing index with
  | nil => exact .nil index
  | cons segment segments ih =>
    have hrest := ih fun other hmem => h other (List.mem_cons_of_mem _ hmem)
    cases segment with
    | content text references =>
      have htext : text ≠ "" := h _ List.mem_cons_self
      rw [segmentDeltas, contentDeltas, List.map_append, List.map_append, List.map_map,
        ← annotationDeltas_eq, List.append_assoc]
      exact .content _ (Text.wordFragments_ne_nil _ htext)
        (fun fragment hmem => Text.ne_empty_of_mem_wordFragments hmem) (hrest index)
    | toolCall call =>
      rw [segmentDeltas, callDeltas, List.map_append, List.map_cons, List.map_map,
        List.cons_append]
      exact .call (fun fragment hmem => Text.ne_empty_of_mem_charFragments hmem)
        (Text.join_charFragments _ _) (hrest (index + 1))

theorem planDeltas_deltas (settings : StreamSettings) (plan : Plan) :
    PlanDeltas plan ((deltas settings plan).map Delta.toJson) := by
  refine ⟨(reasoningDeltas settings (render plan).reasoning).map Delta.toJson,
    (segmentDeltas settings 0 (render plan).segments).map Delta.toJson, ?_,
    reasoningPart_deltas settings plan, ?_⟩
  · rw [deltas, List.map_cons, List.map_append]
    rfl
  · have hcontent := contentPart_segmentDeltas settings (filled_segments 0 plan.steps) 0
    rw [calls_segments] at hcontent
    exact hcontent

/-! ## Whole streams -/

theorem chunkStream_chunks (settings : StreamSettings) (plan : Plan) (stamp : Stamp) :
    ChunkStream plan stamp ((chunks settings plan stamp).map (Chunk.toJson stamp)) := by
  refine ⟨(deltas settings plan).map fun delta => (Chunk.delta delta).toJson stamp,
    (deltas settings plan).map Delta.toJson, (Chunk.finish (finishReason plan)).toJson stamp,
    finishReason plan, (if stamp.includeUsage then [Chunk.usage] else []).map (Chunk.toJson stamp),
    ?_, ?_, planDeltas_deltas settings plan, carries_chunkJson stamp _ _, usagePart_chunks stamp⟩
  · rw [chunks, List.map_append, List.map_map, List.map_cons]
    rfl
  · rw [List.forall₂_map_left_iff, List.forall₂_map_right_iff, List.forall₂_same]
    exact fun delta _ => adds_delta stamp delta

/-- **Every stream keeps to the grammar of its plan.**  The frames carry chunks
and then the mark that ends a stream, which no chunk can be taken for.  The first
chunk gives the role; the reasoning follows exactly if it has words; then come
texts, annotations and calls, the calls of all steps numbered from zero in their
order, each begun once and filled without a break; one chunk gives the reason to
finish, and one more the usage, with the counters of the stamp, exactly if it is
asked for.  These frames are written, unless a number that they need is missing. -/
theorem stream_keeps_chunk_grammar (settings : StreamSettings) (plan : Plan) (stamp : Stamp) :
    ∃ chunks,
      frames settings plan stamp = chunks.map (Frame.ofJson none) ++ [Frame.done] ∧
      (settings.argumentChunk? ≠ none →
        (stamp.includeUsage = true → stamp.usage.totalTokens? ≠ none) →
        EventStream.written (acts settings plan stamp) = frames settings plan stamp) ∧
      (∀ chunk ∈ chunks, (Frame.ofJson none chunk).isDone = false) ∧
      ChunkStream plan stamp chunks := by
  refine ⟨(chunks settings plan stamp).map (Chunk.toJson stamp), frames_eq settings plan stamp,
    written_acts, ?_, chunkStream_chunks settings plan stamp⟩
  intro payload hmem
  obtain ⟨chunk, _, rfl⟩ := List.mem_map.1 hmem
  exact isDone_chunk stamp chunk

end ScriptedChat.Completion
