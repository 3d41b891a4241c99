import ScriptedChat.Proofs.Completion.Client
import ScriptedChat.Proofs.Filler
import ScriptedChat.Proofs.Text.Fragment

/-!
# Chunks and documents show the same answer

A stream and a document are written by two functions that walk the same
segments.  Here a client reads both, and gets what `shown` says.

What is proved here:

* `add_role` … `add_arguments` — what one delta does to a message, for every
  kind of delta;
* `addAll_segments` — the deltas of segments, by induction on the segments: the
  numbers of the tool calls go on from the calls that are there already;
* `addAll_deltas` — all deltas of a plan;
* `addChunks_deltas`, `ofChunks?_chunks` — the same for chunks, which carry the
  head and the reason to finish as well;
* `get?_messageJson` … `contentJson_eq_null` — the fields of a message in a
  document;
* `ofDocument?_document` — the document.
-/

namespace ScriptedChat.Completion

open Json (get?_object lookup_append lookup_cons lookup_nil)

/-! ## One delta -/

theorem add_role (reply : Reply) : reply.add Delta.role.toJson = some reply := by
  simp [Reply.add, Delta.toJson, fieldText, fieldItems, Json.getText?, Json.asText?, addOnce,
    addFragment]

theorem add_nothing (reply : Reply) : reply.add (.obj []) = some reply := by
  simp [Reply.add, fieldText, fieldItems, Json.getText?, Json.get?, addOnce, addFragment]

theorem add_reasoning (reply : Reply) (fragment : String) :
    reply.add (Delta.reasoning fragment).toJson =
      some { reply with reasoning := some (reply.reasoning.getD "" ++ fragment) } := by
  simp [Reply.add, Delta.toJson, fieldText, fieldItems, Json.getText?, Json.asText?, addOnce,
    addFragment]

theorem add_reasoningDetails (reply : Reply) (whole : String) (h : reply.details = none) :
    reply.add (Delta.reasoningDetails whole).toJson =
      some { reply with details := some (.arr [reasoningDetail whole]) } := by
  simp [Reply.add, Delta.toJson, fieldText, fieldItems, Json.getText?, addOnce, addFragment, h]

theorem add_content (reply : Reply) (fragment : String) :
    reply.add (Delta.content fragment).toJson =
      some { reply with content := reply.content ++ fragment } := by
  simp [Reply.add, Delta.toJson, fieldText, fieldItems, Json.getText?, Json.asText?, addOnce,
    addFragment]

theorem add_references (reply : Reply) (items : List Reference) :
    reply.add (Delta.references items).toJson =
      some { reply with annotations := reply.annotations ++ items.map Reference.toJson } := by
  simp [Reply.add, Delta.toJson, fieldText, fieldItems, Json.getText?, Json.asItems?, addOnce,
    addFragment]

/-- A number that is not known yet begins a call. -/
theorem add_toolCall (reply : Reply) (id name : String) :
    reply.add (Delta.toolCall reply.calls.length id name).toJson =
      some { reply with calls := reply.calls ++ [{ id, name, arguments := "" }] } := by
  simp [Reply.add, Delta.toJson, fieldText, fieldItems, Json.getText?, Json.asText?, Json.asItems?,
    addOnce, addFragment, addCallPart]

theorem modify_last (calls : List ToolCall) (call : ToolCall) (f : ToolCall → ToolCall) :
    (calls ++ [call]).modify calls.length f = calls ++ [f call] := by
  induction calls with
  | nil => rfl
  | cons first calls ih =>
    rw [List.cons_append, List.length_cons, List.modify_succ_cons, ih]
    rfl

/-- The number of the last call goes on with its arguments. -/
theorem add_arguments (reply : Reply) (calls : List ToolCall) (call : ToolCall)
    (fragment : String) :
    Reply.add { reply with calls := calls ++ [call] }
        (Delta.arguments calls.length fragment).toJson =
      some { reply with
        calls := calls ++ [{ call with arguments := call.arguments ++ fragment }] } := by
  simp [Reply.add, Delta.toJson, fieldText, fieldItems, Json.getText?, Json.asText?, Json.asItems?,
    addOnce, addFragment, addCallPart, modify_last]

/-! ## All deltas -/

/-- A message after deltas. -/
def Reply.addAll (reply : Reply) (deltas : List Delta) : Option Reply :=
  deltas.foldlM (fun reply delta => reply.add delta.toJson) reply

theorem addAll_cons (reply : Reply) (delta : Delta) (deltas : List Delta) :
    reply.addAll (delta :: deltas) = (reply.add delta.toJson).bind (·.addAll deltas) := by
  rw [Reply.addAll, List.foldlM_cons]
  rfl

theorem addAll_append (reply : Reply) (deltas more : List Delta) :
    reply.addAll (deltas ++ more) = (reply.addAll deltas).bind (·.addAll more) := by
  rw [Reply.addAll, List.foldlM_append]
  rfl

theorem addAll_content (reply : Reply) (fragments : List String) :
    reply.addAll (fragments.map .content) =
      some { reply with content := reply.content ++ String.join fragments } := by
  rw [Reply.addAll, List.foldlM_map]
  exact Text.foldlM_fragments (fun reply fragment => reply.add (Delta.content fragment).toJson)
    (fun text => { reply with content := text }) (fun _ => add_content _) reply.content fragments

theorem addAll_reasoning_more {reply : Reply} {text : String} (h : reply.reasoning = some text)
    (fragments : List String) :
    reply.addAll (fragments.map .reasoning) =
      some { reply with reasoning := some (text ++ String.join fragments) } := by
  have hfold := Text.foldlM_fragments
    (fun reply fragment => reply.add (Delta.reasoning fragment).toJson)
    (fun text => { reply with reasoning := some text }) (fun _ => add_reasoning _) text fragments
  rw [← h] at hfold
  rw [Reply.addAll, List.foldlM_map]
  exact hfold

theorem addAll_arguments (reply : Reply) (calls : List ToolCall) (call : ToolCall)
    (fragments : List String) :
    Reply.addAll { reply with calls := calls ++ [call] }
        (fragments.map (.arguments calls.length)) =
      some { reply with
        calls := calls ++ [{ call with arguments := call.arguments ++ String.join fragments }] } := by
  rw [Reply.addAll, List.foldlM_map]
  exact Text.foldlM_fragments
    (fun reply fragment => reply.add (Delta.arguments calls.length fragment).toJson)
    (fun text => { reply with calls := calls ++ [{ call with arguments := text }] })
    (fun text => add_arguments reply calls { call with arguments := text }) call.arguments fragments

/-- A whole call, which gets the next number. -/
theorem addAll_call (settings : StreamSettings) (reply : Reply) (call : ToolCall) :
    reply.addAll (callDeltas settings reply.calls.length call) =
      some { reply with calls := reply.calls ++ [call] } := by
  rw [callDeltas, addAll_cons, add_toolCall, Option.bind_some, addAll_arguments,
    Text.join_charFragments, String.empty_append]

/-- A whole text with its references. -/
theorem addAll_text (settings : StreamSettings) (reply : Reply) (text : String)
    (references : List Reference) :
    reply.addAll (contentDeltas settings text references) =
      some { reply with
        content := reply.content ++ text
        annotations := reply.annotations ++ references.map Reference.toJson } := by
  rw [contentDeltas, addAll_append, addAll_content, Option.bind_some, Text.join_wordFragments]
  cases references with
  | nil =>
    rw [List.map_nil, List.append_nil]
    rfl
  | cons reference references =>
    rw [List.isEmpty_cons, if_neg Bool.false_ne_true, addAll_cons, add_references]
    rfl

/-- **Segments in any order.**  Texts, references and calls each arrive in their
own order, however they are mixed. -/
theorem addAll_segments (settings : StreamSettings) (segments : List Segment) (reply : Reply) :
    reply.addAll (segmentDeltas settings reply.calls.length segments) =
      some { reply with
        content := reply.content ++ String.join (segments.map Segment.text)
        annotations :=
          reply.annotations ++ (segments.flatMap Segment.references).map Reference.toJson
        calls := reply.calls ++ segments.filterMap Segment.call? } := by
  induction segments generalizing reply with
  | nil =>
    simp only [List.map_nil, String.join_nil, String.append_empty, List.flatMap_nil,
      List.append_nil, List.filterMap_nil]
    rfl
  | cons segment segments ih =>
    cases segment with
    | content text references =>
      rw [segmentDeltas, addAll_append, addAll_text, Option.bind_some, ih]
      simp only [List.map_cons, String.join_cons, String.append_assoc, List.flatMap_cons,
        List.map_append, List.append_assoc, Segment.text, Segment.references]
      rfl
    | toolCall call =>
      have hlen : (reply.calls ++ [call]).length = reply.calls.length + 1 := List.length_append
      have hrest := ih { reply with calls := reply.calls ++ [call] }
      rw [hlen] at hrest
      rw [segmentDeltas, addAll_append, addAll_call, Option.bind_some, hrest]
      simp [Segment.text, Segment.references, Segment.call?]

/-! ## Reasoning -/

theorem addAll_reasoning (settings : StreamSettings) {reply : Reply} {text : String}
    (hreasoning : reply.reasoning = none) (hdetails : reply.details = none) (htext : text ≠ "") :
    reply.addAll (reasoningDeltas settings (some text)) =
      some { reply with
        reasoning := some text
        details := some (.arr [reasoningDetail text]) } := by
  have hjoin := Text.join_wordFragments settings.wordsPerChunk.toNat text
  rw [reasoningDeltas]
  cases hfragments : Text.wordFragments settings.wordsPerChunk.toNat text with
  | nil =>
    rw [hfragments, String.join_nil] at hjoin
    exact absurd hjoin.symm htext
  | cons fragment fragments =>
    rw [hfragments, String.join_cons] at hjoin
    rw [List.map_cons, List.cons_append, addAll_cons, add_reasoning, Option.bind_some,
      addAll_append, addAll_reasoning_more rfl, Option.bind_some, addAll_cons,
      hreasoning, Option.getD_none, String.empty_append, hjoin, add_reasoningDetails]
    · rfl
    · exact hdetails

/-- **The deltas of a plan make up its message.** -/
theorem addAll_deltas (settings : StreamSettings) (plan : Plan) (stamp : Stamp) :
    Reply.empty.addAll (deltas settings plan) = some (shown plan stamp).reply := by
  rw [deltas, addAll_cons, add_role, Option.bind_some, addAll_append]
  cases hreasoning : (render plan).reasoning with
  | none =>
    have hsegments := addAll_segments settings (render plan).segments .empty
    change Reply.empty.addAll (segmentDeltas settings 0 (render plan).segments) = _ at hsegments
    show Reply.empty.addAll (segmentDeltas settings 0 (render plan).segments) = _
    rw [hsegments, shown, hreasoning]
    simp only [Reply.empty, String.empty_append, List.nil_append]
    rfl
  | some text =>
    have htext : text ≠ "" := Plan.reasoningText?_ne_empty hreasoning
    have hsegments := addAll_segments settings (render plan).segments
      { Reply.empty with
        reasoning := some text
        details := some (.arr [reasoningDetail text]) }
    rw [addAll_reasoning settings rfl rfl htext, Option.bind_some]
    refine hsegments.trans ?_
    rw [shown, hreasoning]
    simp only [Reply.empty, String.empty_append, List.nil_append]
    rfl

/-! ## All chunks -/

/-- Every chunk carries the same head. -/
theorem head?_chunk (stamp : Stamp) (chunk : Chunk) :
    Head.of? (chunk.toJson stamp) = some (headOf stamp) := by
  cases chunk <;>
    simp [Head.of?, Chunk.toJson, chunkJson, Json.getText?, Json.asText?, headOf]

theorem addChoice_eq (draft : Draft) (delta reason : Json) :
    draft.addChoice (choiceJson delta reason) =
      (draft.reply.add delta).bind fun reply =>
        match reason.asText? with
        | none => some { draft with reply }
        | some reason =>
          if draft.finishReason.isNone then some { draft with reply, finishReason := some reason }
          else none := by
  have hdelta : (choiceJson delta reason).get? "delta" = some delta := by simp [choiceJson]
  have hreason : (choiceJson delta reason).getText? "finish_reason" = reason.asText? := by
    simp [choiceJson, Json.getText?]
  rw [Draft.addChoice, hdelta, hreason]
  rfl

theorem addChunk_delta {draft : Draft} {stamp : Stamp}
    (h : draft.head.all (· = headOf stamp) = true) (delta : Delta) :
    draft.addChunk ((Chunk.delta delta).toJson stamp) =
      (draft.reply.add delta.toJson).map fun reply =>
        { draft with head := some (headOf stamp), reply } := by
  have hchoices : (((Chunk.delta delta).toJson stamp).get? "choices").bind Json.asItems? =
      some [choiceJson delta.toJson .null] := by
    simp [Chunk.toJson, chunkJson, Json.asItems?]
  rw [Draft.addChunk, head?_chunk, hchoices]
  simp only [Option.bind_eq_bind, Option.bind_some, if_pos h, List.foldlM_cons, List.foldlM_nil,
    addChoice_eq]
  cases draft.reply.add delta.toJson with
  | none => rfl
  | some reply => rfl

theorem addChunk_finish {draft : Draft} {stamp : Stamp} (h : draft.head = some (headOf stamp))
    (hfinish : draft.finishReason = none) (reason : String) :
    draft.addChunk ((Chunk.finish reason).toJson stamp) =
      some { draft with finishReason := some reason } := by
  have hchoices : (((Chunk.finish reason).toJson stamp).get? "choices").bind Json.asItems? =
      some [choiceJson (.obj []) (.str reason)] := by
    simp [Chunk.toJson, chunkJson, Json.asItems?]
  rw [Draft.addChunk, head?_chunk, hchoices]
  simp [h, addChoice_eq, Json.asText?, add_nothing, hfinish]

theorem addChunk_usage {draft : Draft} {stamp : Stamp} (h : draft.head = some (headOf stamp)) :
    draft.addChunk (Chunk.usage.toJson stamp) = some draft := by
  have hchoices : ((Chunk.usage.toJson stamp).get? "choices").bind Json.asItems? = some [] := by
    simp [Chunk.toJson, chunkJson, Json.asItems?]
  obtain ⟨head, reply, finishReason⟩ := draft
  cases h
  rw [Draft.addChunk, head?_chunk, hchoices]
  simp

/-- Chunks with deltas do to an answer what the deltas do to its message. -/
theorem addChunks_deltas {draft : Draft} {stamp : Stamp} (h : draft.head = some (headOf stamp))
    (deltas : List Delta) :
    (deltas.map fun delta => (Chunk.delta delta).toJson stamp).foldlM Draft.addChunk draft =
      (draft.reply.addAll deltas).map fun reply => { draft with reply } := by
  induction deltas generalizing draft with
  | nil => rfl
  | cons delta deltas ih =>
    rw [List.map_cons, List.foldlM_cons, addChunk_delta (by simp [h]), addAll_cons, ← h]
    cases draft.reply.add delta.toJson with
    | none => rfl
    | some reply => exact ih h

/-- All chunks with deltas; the first one brings the head. -/
theorem addChunks_plan (settings : StreamSettings) (plan : Plan) (stamp : Stamp) :
    ((deltas settings plan).map fun delta => (Chunk.delta delta).toJson stamp).foldlM
        Draft.addChunk .empty =
      some
        { head := some (headOf stamp)
          reply := (shown plan stamp).reply
          finishReason := none } := by
  have hdeltas := addAll_deltas settings plan stamp
  have hfirst : Draft.empty.addChunk ((Chunk.delta .role).toJson stamp) =
      some { head := some (headOf stamp), reply := .empty, finishReason := none } := by
    rw [addChunk_delta rfl, add_role]
    rfl
  rw [deltas, addAll_cons, add_role, Option.bind_some] at hdeltas
  rw [deltas, List.map_cons, List.foldlM_cons, hfirst]
  exact (addChunks_deltas rfl _).trans (congrArg (Option.map _) hdeltas)

/-- **The chunks of a stream make up the answer.** -/
theorem ofChunks?_chunks (settings : StreamSettings) (plan : Plan) (stamp : Stamp) :
    Answer.ofChunks? ((chunks settings plan stamp).map (Chunk.toJson stamp)) =
      some (shown plan stamp) := by
  have hplan := addChunks_plan settings plan stamp
  have hfold : ((chunks settings plan stamp).map (Chunk.toJson stamp)).foldlM
      Draft.addChunk .empty =
        some
          { head := some (headOf stamp)
            reply := (shown plan stamp).reply
            finishReason := some (finishReason plan) } := by
    rw [chunks, List.map_append, List.map_map, List.foldlM_append]
    refine (congrArg (· >>= _) hplan).trans ?_
    rw [Option.bind_eq_bind, Option.bind_some, List.map_cons, List.foldlM_cons,
      addChunk_finish rfl rfl]
    cases stamp.includeUsage with
    | false => rfl
    | true =>
      rw [if_pos rfl, List.map_cons, Option.bind_eq_bind, Option.bind_some, List.foldlM_cons,
        addChunk_usage rfl]
      rfl
  rw [Answer.ofChunks?, hfold]
  rfl

/-! ## The document -/

/-- A list is found in its field, and an empty list has none. -/
theorem lookup_listField (name field : String) (items : List Json) :
    Json.lookup name (listField field items).reverse =
      if field = name ∧ items ≠ [] then some (.arr items) else none := by
  cases items with
  | nil => simp [listField]
  | cons item items => simp [listField]

theorem lookup_reasoningFields (name : String) (reasoning : Option String) :
    Json.lookup name (reasoningFields reasoning).reverse =
      if name = "reasoning" then reasoning.map .str
      else if name = "reasoning_details" then
        reasoning.map fun text => .arr [reasoningDetail text]
      else none := by
  cases reasoning with
  | none => simp [reasoningFields]
  | some text =>
    simp only [reasoningFields, List.reverse_cons, List.reverse_nil, List.nil_append,
      List.cons_append, lookup_cons, lookup_nil]
    grind

/-- The fields of a message, the last ones first. -/
theorem get?_messageJson (name : String) (rendering : Rendering) :
    (messageJson rendering).get? name =
      (Json.lookup name (reasoningFields rendering.reasoning).reverse).or
        ((Json.lookup name
            (listField "annotations" (rendering.references.map Reference.toJson)).reverse).or
          ((Json.lookup name
              (listField "tool_calls" (rendering.toolCalls.map toolCallJson)).reverse).or
            (Json.lookup name
              [("refusal", .null), ("content", contentJson rendering), ("role", .str "assistant")])))
      := by
  rw [messageJson, get?_object, List.reverse_append, lookup_append, List.reverse_append,
    lookup_append, List.reverse_append, lookup_append]
  rfl

theorem get?_content (rendering : Rendering) :
    (messageJson rendering).get? "content" = some (contentJson rendering) := by
  simp [get?_messageJson, lookup_reasoningFields, lookup_listField]

theorem get?_annotations (rendering : Rendering) :
    (messageJson rendering).get? "annotations" =
      if rendering.references = [] then none
      else some (.arr (rendering.references.map Reference.toJson)) := by
  simp [get?_messageJson, lookup_reasoningFields, lookup_listField]

theorem get?_toolCalls (rendering : Rendering) :
    (messageJson rendering).get? "tool_calls" =
      if rendering.toolCalls = [] then none
      else some (.arr (rendering.toolCalls.map toolCallJson)) := by
  simp [get?_messageJson, lookup_reasoningFields, lookup_listField]

theorem get?_reasoning (rendering : Rendering) :
    (messageJson rendering).get? "reasoning" = rendering.reasoning.map .str := by
  simp [get?_messageJson, lookup_reasoningFields, lookup_listField]

theorem get?_reasoningDetails (rendering : Rendering) :
    (messageJson rendering).get? "reasoning_details" =
      rendering.reasoning.map fun text => .arr [reasoningDetail text] := by
  simp [get?_messageJson, lookup_reasoningFields, lookup_listField]

theorem content?_contentJson (rendering : Rendering) :
    content? (contentJson rendering) = some rendering.content := by
  rw [contentJson]
  split
  · rename_i h
    rw [Bool.and_eq_true, decide_eq_true_iff] at h
    rw [h.1]
    rfl
  · rfl

/-- The content is null exactly where a message consists of calls alone. -/
theorem contentJson_eq_null (rendering : Rendering) :
    contentJson rendering = .null ↔ rendering.content = "" ∧ rendering.toolCalls ≠ [] := by
  rw [contentJson]
  split
  · rename_i h
    simpa using h
  · rename_i h
    simpa using h

theorem call?_toolCallJson (call : ToolCall) : call? (toolCallJson call) = some call := by
  simp [call?, toolCallJson, Json.getText?, Json.asText?]

theorem mapM_call? (calls : List ToolCall) : (calls.map toolCallJson).mapM call? = some calls := by
  induction calls with
  | nil => rfl
  | cons call calls ih =>
    rw [List.map_cons, List.mapM_cons, call?_toolCallJson, ih]
    rfl

/-- **A message is read back from its document.** -/
theorem of?_messageJson (plan : Plan) (stamp : Stamp) :
    Reply.of? (messageJson (render plan)) = some (shown plan stamp).reply := by
  have hannotations : fieldItems "annotations" (messageJson (render plan)) =
      (render plan).references.map Reference.toJson := by
    rw [fieldItems, get?_annotations]
    split
    · rename_i h
      rw [h]
      rfl
    · rfl
  have hcalls : fieldItems "tool_calls" (messageJson (render plan)) =
      (render plan).toolCalls.map toolCallJson := by
    rw [fieldItems, get?_toolCalls]
    split
    · rename_i h
      rw [h]
      rfl
    · rfl
  have hreasoning : (messageJson (render plan)).getText? "reasoning" = (render plan).reasoning := by
    rw [Json.getText?, get?_reasoning]
    cases (render plan).reasoning with
    | none => rfl
    | some text => rfl
  rw [Reply.of?, get?_content, Option.bind_some, content?_contentJson, hcalls, mapM_call?,
    hannotations, hreasoning, get?_reasoningDetails]
  rfl

theorem choice?_document (plan : Plan) (stamp : Stamp) :
    choice? (document plan stamp) = some (.object
      [("index", .nat 0),
       ("message", messageJson (render plan)),
       ("logprobs", .null),
       ("finish_reason", .str (finishReason plan))]) := by
  simp [choice?, document, Json.asItems?]

theorem message?_document (plan : Plan) (stamp : Stamp) :
    message? (document plan stamp) = some (messageJson (render plan)) := by
  rw [message?, choice?_document]
  simp

/-- **A document holds the answer.** -/
theorem ofDocument?_document (plan : Plan) (stamp : Stamp) :
    Answer.ofDocument? (document plan stamp) = some (shown plan stamp) := by
  have hhead : Head.of? (document plan stamp) = some (headOf stamp) := by
    simp [Head.of?, document, Json.getText?, Json.asText?, headOf]
  rw [Answer.ofDocument?, hhead, choice?_document]
  simp [of?_messageJson plan stamp, Json.getText?, Json.asText?]
  rfl

end ScriptedChat.Completion
