import ScriptedChat.Proofs.Filler
import ScriptedChat.Proofs.Message.Agreement

/-!
# The order of events

A stream of events keeps to a grammar.  Between the first and the last events
stand the runs of the blocks, one for each block of the document and in its
order; a run opens its block, fills it and closes it, and all its events carry
the number of the block.

* `Fits` — the additions that a type of block may have;
* `BlockRun`, `BlockRuns`, `MessageStream` — one block, blocks one after the
  other, and a whole message, told by the fields of the events alone;
* `fits_deltas`, `join_fragments` — what a block is filled with;
* `blockRun_events`, `blockRuns_events` — one block, and blocks in any number by
  induction;
* `stream_keeps_grammar` — every stream is a message of its document.
-/

namespace ScriptedChat.Message

/-! ## The grammar -/

/-- The types of additions that a block of the given type may have.  Only the result of a
provider's tool has none. -/
inductive Fits : String → List String → Prop
  | thinking (n : Nat) :
    Fits "thinking" (List.replicate (n + 1) "thinking_delta" ++ ["signature_delta"])
  | text (n : Nat) : Fits "text" (List.replicate (n + 1) "text_delta")
  | toolUse (n : Nat) : Fits "tool_use" (List.replicate (n + 1) "input_json_delta")
  | serverToolUse (n : Nat) : Fits "server_tool_use" (List.replicate (n + 1) "input_json_delta")
  | serverToolResult (name : String) : Fits (name ++ "_tool_result") []

/-- An event of the given type. -/
def IsEvent (type : String) (event : Json) : Prop :=
  event.getText? "type" = some type

/-- An event of the given type for the block with the given number. -/
def IsBlockEvent (type : String) (index : Nat) (event : Json) : Prop :=
  IsEvent type event ∧ index? event = some index

/-- A field of the addition that an event carries. -/
def deltaText? (field : String) (event : Json) : Option String :=
  (event.get? "delta").bind (·.getText? field)

/-- The events of one block of a document. -/
structure BlockRun (index : Nat) (block opening : Json) (deltas : List Json) (closing : Json) :
    Prop where
  opens : IsBlockEvent "content_block_start" index opening
  fills : ∀ delta ∈ deltas, IsBlockEvent "content_block_delta" index delta
  closes : IsBlockEvent "content_block_stop" index closing
  /-- the block is opened with the type that it has in the document, and filled accordingly -/
  fits : ∃ type types,
    (opening.get? "content_block").bind (·.getText? "type") = some type ∧
    block.getText? "type" = some type ∧
    deltas.map (deltaText? "type") = types.map some ∧
    Fits type types
  /-- a text, or a reasoning, stands in the field that is called like its type -/
  filled : ∀ type, type = "text" ∨ type = "thinking" → block.getText? "type" = some type →
    ∃ text, text ≠ "" ∧ block.getText? type = some text ∧
      String.join (deltas.filterMap (deltaText? type)) = text

/-- The events of the blocks of a document, the first of which has the given number. -/
inductive BlockRuns : Nat → List Json → List Json → Prop
  | nil (index : Nat) : BlockRuns index [] []
  | cons {index : Nat} {block opening closing : Json} {deltas blocks events : List Json}
    (run : BlockRun index block opening deltas closing)
    (runs : BlockRuns (index + 1) blocks events) :
    BlockRuns index (block :: blocks) (opening :: (deltas ++ closing :: events))

/-- The events of a message with the given blocks. -/
def MessageStream (content events : List Json) : Prop :=
  ∃ start blocks closing stop, events = start :: (blocks ++ [closing, stop]) ∧
    IsEvent "message_start" start ∧ BlockRuns 0 content blocks ∧
    IsEvent "message_delta" closing ∧ IsEvent "message_stop" stop

/-! ## What a block is filled with -/

theorem type_opening (block : Block) : block.opening.getText? "type" = some block.type := by
  cases block with
  | text content citations =>
    cases citations <;>
      simp [Block.opening, textJson, citationsField, Json.getText?, Json.asText?, Block.type]
  | _ =>
    simp [Block.opening, thinkingJson, useJson, resultJson, Json.getText?, Json.asText?, Block.type]

/-- A block of a plan that has a text has one that is not empty. -/
def Block.Filled : Block → Prop
  | .thinking content => content ≠ ""
  | .text content _ => content ≠ ""
  | _ => True

theorem filled_of_mem_textBlocks {block : Block} {text : String}
    {citations : Option (List Citation)} (h : block ∈ textBlocks text citations) : block.Filled := by
  rw [textBlocks] at h
  split at h
  · exact absurd h List.not_mem_nil
  · rename_i hne
    rw [List.mem_singleton.1 h]
    exact hne

/-- **No block of a plan is empty.** -/
theorem filled_of_mem_blocks {plan : Plan} {block : Block} (h : block ∈ blocks plan) :
    block.Filled := by
  rcases List.mem_append.1 h with hthinking | hsteps
  · rw [thinkingBlocks, Option.mem_toList] at hthinking
    obtain ⟨text, htext, rfl⟩ := Option.map_eq_some_iff.1 hthinking
    exact Plan.reasoningText?_ne_empty htext
  · obtain ⟨step, _, hmem⟩ := List.mem_flatMap.1 hsteps
    cases step with
    | filler length => exact filled_of_mem_textBlocks hmem
    | literal text => exact filled_of_mem_textBlocks hmem
    | echo value => exact filled_of_mem_textBlocks hmem
    | toolCalls calls =>
      obtain ⟨call, _, rfl⟩ := List.mem_map.1 hmem
      trivial
    | serverToolUse use =>
      rw [List.mem_singleton.1 hmem]
      trivial
    | serverToolResult result =>
      rw [List.mem_singleton.1 hmem]
      trivial
    | cited cited => exact filled_of_mem_textBlocks hmem

theorem exists_length_wordFragments (size : Nat) {text : String} (h : text ≠ "") :
    ∃ n, (Text.wordFragments size text).length = n + 1 :=
  Nat.exists_eq_add_one_of_ne_zero (List.length_eq_zero_iff.not.2 (Text.wordFragments_ne_nil size h))

/-- Additions of one kind, one for every fragment. -/
theorem types_fragments (make : String → Delta) {type : String}
    (h : ∀ fragment, (make fragment).type = type) (fragments : List String) :
    (fragments.map make).map Delta.type = List.replicate fragments.length type := by
  rw [List.map_map]
  exact List.map_eq_replicate_iff.2 fun fragment _ => h fragment

/-- The arguments of a tool have a fragment, be they empty or not. -/
theorem types_inputDeltas (settings : StreamSettings) (arguments : String) :
    ∃ n, (inputDeltas settings arguments).map Delta.type =
      List.replicate (n + 1) "input_json_delta" := by
  obtain ⟨first, more, hdeltas, -⟩ := exists_inputDeltas settings arguments
  exact ⟨more.length, by rw [hdeltas, types_fragments .inputJson fun _ => rfl]; rfl⟩

/-- **The additions of a block fit its type.** -/
theorem fits_deltas (settings : StreamSettings) {block : Block} (h : block.Filled) :
    Fits block.type ((block.deltas settings).map Delta.type) := by
  cases block with
  | thinking content =>
    obtain ⟨n, hn⟩ := exists_length_wordFragments settings.wordsPerChunk.toNat h
    rw [Block.deltas, List.map_append, types_fragments .thinking fun _ => rfl, hn]
    exact .thinking n
  | text content citations =>
    obtain ⟨n, hn⟩ := exists_length_wordFragments settings.wordsPerChunk.toNat h
    rw [Block.deltas, types_fragments .text fun _ => rfl, hn]
    exact .text n
  | toolUse id name arguments =>
    obtain ⟨n, hn⟩ := types_inputDeltas settings arguments
    rw [Block.deltas, hn]
    exact .toolUse n
  | serverToolUse use =>
    obtain ⟨n, hn⟩ := types_inputDeltas settings use.input.compact
    rw [Block.deltas, hn]
    exact .serverToolUse n
  | serverToolResult result => exact .serverToolResult result.name

/-! ## Fields of events -/

variable {plan : Plan} {stamp : Stamp}

theorem isEvent_payload (event : Event) : IsEvent event.name (event.payload plan stamp) :=
  type_payload plan stamp event

theorem isBlockEvent_blockStart (index : Nat) (block : Block) :
    IsBlockEvent "content_block_start" index ((Event.blockStart index block).payload plan stamp) :=
  ⟨isEvent_payload _, by simp [index?, Event.payload, Event.fields]⟩

theorem isBlockEvent_blockDelta (index : Nat) (delta : Delta) :
    IsBlockEvent "content_block_delta" index ((Event.blockDelta index delta).payload plan stamp) :=
  ⟨isEvent_payload _, by simp [index?, Event.payload, Event.fields]⟩

theorem isBlockEvent_blockStop (index : Nat) :
    IsBlockEvent "content_block_stop" index ((Event.blockStop index).payload plan stamp) :=
  ⟨isEvent_payload _, by simp [index?, Event.payload, Event.fields]⟩

theorem opening_blockStart (index : Nat) (block : Block) :
    ((Event.blockStart index block).payload plan stamp).get? "content_block" =
      some block.opening := by
  simp [Event.payload, Event.fields]

/-- The fields of an addition are found in its event. -/
theorem deltaText?_blockDelta (field : String) (index : Nat) (delta : Delta) :
    deltaText? field ((Event.blockDelta index delta).payload plan stamp) =
      delta.toJson.getText? field := by
  simp [deltaText?, Event.payload, Event.fields]

theorem type_delta (delta : Delta) : delta.toJson.getText? "type" = some delta.type := by
  cases delta <;> simp [Delta.toJson, Json.getText?, Json.asText?]

/-! ## One block -/

/-- The events that fill a block. -/
def deltaEvents (plan : Plan) (stamp : Stamp) (index : Nat) (deltas : List Delta) : List Json :=
  deltas.map fun delta => (Event.blockDelta index delta).payload plan stamp

theorem types_deltaEvents (index : Nat) (deltas : List Delta) :
    (deltaEvents plan stamp index deltas).map (deltaText? "type") =
      (deltas.map Delta.type).map some := by
  rw [deltaEvents, List.map_map, List.map_map]
  refine List.map_congr_left fun delta _ => ?_
  rw [Function.comp_apply, deltaText?_blockDelta, type_delta]
  rfl

/-- The fragments of a text, as its additions carry them. -/
theorem fragments_deltaEvents (make : String → Delta) {field : String}
    (h : ∀ fragment, (make fragment).toJson.getText? field = some fragment) (index : Nat)
    (fragments : List String) :
    (deltaEvents plan stamp index (fragments.map make)).filterMap (deltaText? field) =
      fragments := by
  induction fragments with
  | nil => rfl
  | cons fragment fragments ih =>
    rw [deltaEvents] at ih ⊢
    rw [List.map_cons, List.map_cons, List.filterMap_cons, deltaText?_blockDelta, h, ih]

theorem eq_text_of_type {block : Block} (h : block.type = "text") :
    ∃ content citations, block = .text content citations := by
  cases block with
  | thinking content => exact absurd h (by decide : "thinking" ≠ "text")
  | text content citations => exact ⟨content, citations, rfl⟩
  | toolUse id name arguments => exact absurd h (by decide : "tool_use" ≠ "text")
  | serverToolUse use => exact absurd h (by decide : "server_tool_use" ≠ "text")
  | serverToolResult result => exact absurd h (blockType_ne result (by decide))

/-- A block of text, or of reasoning, shows what its fragments make up. -/
theorem filled_deltaEvents (settings : StreamSettings) (index : Nat) {block : Block}
    (h : block.Filled) {type : String} (hkind : type = "text" ∨ type = "thinking")
    (htype : block.toJson.getText? "type" = some type) :
    ∃ text, text ≠ "" ∧ block.toJson.getText? type = some text ∧
      String.join ((deltaEvents plan stamp index (block.deltas settings)).filterMap
        (deltaText? type)) = text := by
  rw [type_toJson, Option.some_inj] at htype
  rcases hkind with rfl | rfl
  · obtain ⟨content, citations, rfl⟩ := eq_text_of_type htype
    refine ⟨content, h, ?_, ?_⟩
    · cases citations <;>
        simp [Block.toJson, textJson, citationsField, Json.getText?, Json.asText?]
    · have hfragment : ∀ fragment, (Delta.text fragment).toJson.getText? "text" = some fragment := by
        simp [Delta.toJson, Json.getText?, Json.asText?]
      rw [Block.deltas, fragments_deltaEvents .text hfragment, Text.join_wordFragments]
  · obtain ⟨content, rfl⟩ := eq_thinking_of_type htype
    refine ⟨content, h, ?_, ?_⟩
    · simp [Block.toJson, thinkingJson, Json.getText?, Json.asText?]
    · have hfragment : ∀ fragment,
          (Delta.thinking fragment).toJson.getText? "thinking" = some fragment := by
        simp [Delta.toJson, Json.getText?, Json.asText?]
      have hsignature : deltaText? "thinking" ((Event.blockDelta index
          (.signature (thinkingSignature content))).payload plan stamp) = none := by
        rw [deltaText?_blockDelta]
        simp [Delta.toJson, Json.getText?]
      rw [Block.deltas, deltaEvents, List.map_append, List.filterMap_append, ← deltaEvents,
        fragments_deltaEvents .thinking hfragment, List.map_singleton, List.filterMap_cons,
        hsignature, List.filterMap_nil, List.append_nil, Text.join_wordFragments]

/-- **One block.** -/
theorem blockRun_events (plan : Plan) (stamp : Stamp) (settings : StreamSettings) (index : Nat)
    {block : Block} (h : block.Filled) :
    BlockRun index block.toJson ((Event.blockStart index block).payload plan stamp)
      (deltaEvents plan stamp index (block.deltas settings))
      ((Event.blockStop index).payload plan stamp) where
  opens := isBlockEvent_blockStart index block
  fills := by
    intro event hmem
    obtain ⟨delta, _, rfl⟩ := List.mem_map.1 hmem
    exact isBlockEvent_blockDelta index delta
  closes := isBlockEvent_blockStop index
  fits := by
    refine ⟨block.type, (block.deltas settings).map Delta.type, ?_, type_toJson block,
      types_deltaEvents index _, fits_deltas settings h⟩
    rw [opening_blockStart, Option.bind_some, type_opening]
  filled := fun type hkind htype => filled_deltaEvents settings index h hkind htype

/-! ## All blocks -/

/-- **Blocks in any number**, numbered in their order. -/
theorem blockRuns_events (plan : Plan) (stamp : Stamp) (settings : StreamSettings)
    {blocks : List Block} (h : ∀ block ∈ blocks, block.Filled) (index : Nat) :
    BlockRuns index (blocks.map Block.toJson)
      (((blocks.zipIdx index).flatMap fun (block, index) => blockEvents settings index block).map
        (Event.payload plan stamp)) := by
  induction blocks generalizing index with
  | nil => exact .nil index
  | cons block blocks ih =>
    have hrun := blockRun_events plan stamp settings index (h block List.mem_cons_self)
    have hruns := ih (fun other hmem => h other (List.mem_cons_of_mem _ hmem)) (index + 1)
    have hevents : (blockEvents settings index block).map (Event.payload plan stamp) =
        (Event.blockStart index block).payload plan stamp ::
          (deltaEvents plan stamp index (block.deltas settings) ++
            [(Event.blockStop index).payload plan stamp]) := by
      rw [blockEvents, List.map_cons, List.map_append, List.map_map]
      rfl
    rw [List.zipIdx_cons, List.flatMap_cons, List.map_append, hevents, List.cons_append,
      List.append_assoc]
    exact .cons hrun hruns

/-- **Every stream keeps to the grammar of its document.**  The frames carry the
events under the names that the events give themselves.  After the first event
come the blocks of the document, one run for each, numbered from zero; every run
fits its type, only the result of a provider's tool adds nothing to its block,
and no text and no reasoning is empty.  Two events more end the message. -/
theorem stream_keeps_grammar (settings : StreamSettings) (plan : Plan) (stamp : Stamp) :
    ∃ events content,
      frames settings plan stamp =
        events.map (fun event => Frame.ofJson (event.getText? "type") event) ∧
      (settings.argumentChunk? ≠ none →
        EventStream.written (acts settings plan stamp) = frames settings plan stamp) ∧
      (document plan stamp).get? "content" = some (.arr content) ∧
      MessageStream content events := by
  refine ⟨(events settings plan).map (Event.payload plan stamp), (blocks plan).map Block.toJson,
    ?_, written_acts, by simp [document], ?_⟩
  · rw [frames, List.map_map]
    refine List.map_congr_left fun event _ => ?_
    rw [Function.comp_apply, type_payload]
  · have hfilled : ∀ block ∈ blocks plan, block.Filled := fun block hmem => filled_of_mem_blocks hmem
    have hruns := blockRuns_events plan stamp settings hfilled 0
    refine ⟨Event.messageStart.payload plan stamp, _, Event.messageDelta.payload plan stamp,
      Event.messageStop.payload plan stamp, ?_, isEvent_payload .messageStart, hruns,
      isEvent_payload .messageDelta, isEvent_payload .messageStop⟩
    rw [events, List.map_cons, List.map_append]
    rfl

end ScriptedChat.Message
