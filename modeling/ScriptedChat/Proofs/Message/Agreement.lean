import ScriptedChat.Proofs.EventStream.Production
import ScriptedChat.Proofs.Json.RoundTrip
import ScriptedChat.Proofs.Message.Client
import ScriptedChat.Proofs.Text.CharCut

/-!
# A stream of events and its document agree

The events of a stream open every block empty, fill it and close it; a document
writes the block at once.  Two functions write the two forms, and a third one
writes what the block is filled with.

What is proved here:

* `set_thinking` … `set_input` — what a client changes in a block, and that
  nothing else changes;
* `exists_inputDeltas` — the fragments in which the arguments of a tool come;
* `add_thinking` … `addAll_inputDeltas` — the additions, one by one and all of a
  kind;
* `filled` — the additions of a block give it its content, for every kind of
  block;
* `addEvent_messageStart` … `addEvent_messageStop` — what one event does;
* `addEvents_blocks` — any number of blocks, by induction on the blocks: between
  two of them a client is in the state `Draft.between`;
* `ofEvents?_events`, `ofDocument?_document` — the whole message;
* `events_fill_document` — a stream and a document show the same message.
-/

namespace ScriptedChat.Message

open Json (Exact get?_object lookup_append set_field)

/-! ## Fields of blocks -/

theorem set_thinking (text more signature : String) :
    (thinkingJson text signature).set "thinking" (.str more) = thinkingJson more signature :=
  set_field [("type", .str "thinking")] _ _ (by simp)

theorem set_signature (text signature more : String) :
    (thinkingJson text signature).set "signature" (.str more) = thinkingJson text more :=
  set_field [("type", .str "thinking"), ("thinking", .str text)] _ _ nofun

theorem set_text (text more : String) (citations : Option (List Citation)) :
    (textJson text citations).set "text" (.str more) = textJson more citations := by
  have hcitations : ∀ field ∈ citationsField citations, field.1 ≠ "text" := by
    cases citations with
    | none => exact nofun
    | some citations => simp [citationsField]
  exact set_field [("type", .str "text")] _ _ hcitations

theorem set_input (type id name : String) (input more : Json) :
    (useJson type id name input).set "input" more = useJson type id name more :=
  set_field [("type", .str type), ("id", .str id), ("name", .str name)] _ _ nofun

/-! ## One addition -/

theorem add_thinking (text signature fragment : String) (input : Option String) :
    OpenBlock.add ⟨thinkingJson text signature, input⟩ (Delta.thinking fragment).toJson =
      some ⟨thinkingJson (text ++ fragment) signature, input⟩ := by
  have hextend : extend? "thinking" fragment (thinkingJson text signature) =
      some (thinkingJson (text ++ fragment) signature) := by
    have htext : (thinkingJson text signature).getText? "thinking" = some text := by
      simp [thinkingJson, Json.getText?, Json.asText?]
    rw [extend?, htext, Option.map_some, set_thinking]
  simp [OpenBlock.add, Delta.toJson, Delta.type, Json.getText?, Json.asText?, hextend]

theorem add_signature (text signature value : String) (input : Option String) :
    OpenBlock.add ⟨thinkingJson text signature, input⟩ (Delta.signature value).toJson =
      some ⟨thinkingJson text value, input⟩ := by
  simp [OpenBlock.add, Delta.toJson, Delta.type, Json.getText?, Json.asText?, set_signature]

theorem add_text (text fragment : String) (citations : Option (List Citation))
    (input : Option String) :
    OpenBlock.add ⟨textJson text citations, input⟩ (Delta.text fragment).toJson =
      some ⟨textJson (text ++ fragment) citations, input⟩ := by
  have hextend : extend? "text" fragment (textJson text citations) =
      some (textJson (text ++ fragment) citations) := by
    have htext : (textJson text citations).getText? "text" = some text := by
      cases citations <;> simp [textJson, citationsField, Json.getText?, Json.asText?]
    rw [extend?, htext, Option.map_some, set_text]
  simp [OpenBlock.add, Delta.toJson, Delta.type, Json.getText?, Json.asText?, hextend]

theorem add_inputJson (block : Json) (input : Option String) (fragment : String) :
    OpenBlock.add ⟨block, input⟩ (Delta.inputJson fragment).toJson =
      some ⟨block, some (input.getD "" ++ fragment)⟩ := by
  simp [OpenBlock.add, Delta.toJson, Delta.type, Json.getText?, Json.asText?]

/-! ## All additions of a block -/

/-- A block after additions. -/
def OpenBlock.addAll (current : OpenBlock) (deltas : List Delta) : Option OpenBlock :=
  deltas.foldlM (fun current delta => current.add delta.toJson) current

theorem addAll_cons (current : OpenBlock) (delta : Delta) (deltas : List Delta) :
    current.addAll (delta :: deltas) = (current.add delta.toJson).bind (·.addAll deltas) := by
  rw [OpenBlock.addAll, List.foldlM_cons]
  rfl

theorem addAll_append (current : OpenBlock) (deltas more : List Delta) :
    current.addAll (deltas ++ more) = (current.addAll deltas).bind (·.addAll more) := by
  rw [OpenBlock.addAll, List.foldlM_append]
  rfl

theorem addAll_thinking (text signature : String) (fragments : List String) :
    OpenBlock.addAll ⟨thinkingJson text signature, none⟩ (fragments.map .thinking) =
      some ⟨thinkingJson (text ++ String.join fragments) signature, none⟩ := by
  rw [OpenBlock.addAll, List.foldlM_map]
  exact Text.foldlM_fragments
    (fun (current : OpenBlock) fragment => current.add (Delta.thinking fragment).toJson)
    (fun text => ⟨thinkingJson text signature, none⟩)
    (fun text fragment => add_thinking text signature fragment none) text fragments

theorem addAll_text (text : String) (citations : Option (List Citation))
    (fragments : List String) :
    OpenBlock.addAll ⟨textJson text citations, none⟩ (fragments.map .text) =
      some ⟨textJson (text ++ String.join fragments) citations, none⟩ := by
  rw [OpenBlock.addAll, List.foldlM_map]
  exact Text.foldlM_fragments
    (fun (current : OpenBlock) fragment => current.add (Delta.text fragment).toJson)
    (fun text => ⟨textJson text citations, none⟩)
    (fun text fragment => add_text text fragment citations none) text fragments

theorem addAll_inputJson (block : Json) (text : String) (fragments : List String) :
    OpenBlock.addAll ⟨block, some text⟩ (fragments.map .inputJson) =
      some ⟨block, some (text ++ String.join fragments)⟩ := by
  rw [OpenBlock.addAll, List.foldlM_map]
  exact Text.foldlM_fragments
    (fun (current : OpenBlock) fragment => current.add (Delta.inputJson fragment).toJson)
    (fun text => ⟨block, some text⟩) (fun text => add_inputJson block (some text)) text fragments

/-- **The arguments of a tool come in as many fragments as they need, and in one at least**; put
together, the fragments are the arguments. -/
theorem exists_inputDeltas (settings : StreamSettings) (arguments : String) :
    ∃ first more, inputDeltas settings arguments = (first :: more).map .inputJson ∧
      String.join (first :: more) = arguments ∧
      (first :: more).length = max (arguments.length ⌈/⌉ settings.argumentChunk) 1 := by
  have hjoin := Text.join_charFragments settings.argumentChunk arguments
  have hcount := Text.length_charFragments settings.argumentChunk arguments
  rw [Nat.max_eq_left settings.argumentChunk_pos] at hcount
  rw [inputDeltas]
  cases hfragments : Text.charFragments settings.argumentChunk arguments with
  | nil =>
    rw [hfragments] at hjoin hcount
    exact ⟨"", [], rfl, hjoin, by rw [← hcount]; rfl⟩
  | cons fragment more =>
    rw [hfragments] at hjoin hcount
    exact ⟨fragment, more, rfl, hjoin, by rw [← hcount]; exact (Nat.max_eq_left (Nat.succ_pos _)).symm⟩

/-- Arguments arrive whole, and empty ones arrive as well. -/
theorem addAll_inputDeltas (settings : StreamSettings) (block : Json) (arguments : String) :
    OpenBlock.addAll ⟨block, none⟩ (inputDeltas settings arguments) =
      some ⟨block, some arguments⟩ := by
  obtain ⟨first, more, hdeltas, hjoin, -⟩ := exists_inputDeltas settings arguments
  rw [String.join_cons] at hjoin
  rw [hdeltas, List.map_cons, addAll_cons, add_inputJson, Option.bind_some, addAll_inputJson,
    Option.getD_none, String.empty_append, hjoin]

/-! ## Whole blocks -/

theorem denoted_eq (text : String) : denoted text = toolInput text := by
  rw [denoted, toolInput]
  cases Json.readText text with
  | ok value => rfl
  | error cause => rfl

/-- The text of an input without floating-point numbers denotes that input. -/
theorem denoted_compact {value : Json} (h : Exact Json.maxDepth value) :
    denoted value.compact = value := by
  rw [denoted, Json.readText_compact h]
  rfl

theorem close_useJson (type id name text : String) (input : Json) :
    OpenBlock.close ⟨useJson type id name input, some text⟩ = useJson type id name (denoted text) :=
  set_input type id name input (denoted text)

/-- A block whose content can be told from its additions.  Only the input of a
provider's tool is written as the text of a value. -/
def Block.Readable : Block → Prop
  | .serverToolUse use => Exact Json.maxDepth use.input
  | _ => True

/-- **The additions of a block give it its content.** -/
theorem filled (settings : StreamSettings) {block : Block} (h : block.Readable) :
    ∃ current, OpenBlock.addAll ⟨block.opening, none⟩ (block.deltas settings) = some current ∧
      current.close = block.toJson := by
  cases block with
  | thinking content =>
    refine ⟨⟨thinkingJson content (thinkingSignature content), none⟩, ?_, rfl⟩
    rw [Block.opening, Block.deltas, addAll_append, addAll_thinking, Option.bind_some,
      Text.join_wordFragments, String.empty_append, addAll_cons, add_signature]
    rfl
  | text content citations =>
    refine ⟨⟨textJson content citations, none⟩, ?_, rfl⟩
    rw [Block.opening, Block.deltas, addAll_text, Text.join_wordFragments, String.empty_append]
  | toolUse id name arguments =>
    refine ⟨_, addAll_inputDeltas settings _ arguments, ?_⟩
    rw [Block.opening, close_useJson, denoted_eq]
    rfl
  | serverToolUse use =>
    refine ⟨_, addAll_inputDeltas settings _ use.input.compact, ?_⟩
    rw [Block.opening, close_useJson, denoted_compact h]
    rfl
  | serverToolResult result => exact ⟨⟨resultJson result, none⟩, rfl, rfl⟩

/-! ## One event -/

variable {plan : Plan} {stamp : Stamp} {draft : Draft}

/-- Every event says of itself which kind it is. -/
theorem type_payload (plan : Plan) (stamp : Stamp) (event : Event) :
    (event.payload plan stamp).getText? "type" = some event.name := by
  cases event <;> simp [Event.payload, Event.fields, Json.getText?, Json.asText?]

theorem addEvent_messageStart :
    Draft.empty.addEvent (Event.messageStart.payload plan stamp) =
      some { Draft.empty with message := some (openingMessage stamp) } := by
  rw [Draft.addEvent, type_payload]
  simp [Event.name, Event.payload, Event.fields, Draft.start, Draft.empty]

theorem addEvent_blockStart (index : Nat) (block : Block) (hstopped : draft.stopped = false)
    (hcurrent : draft.current = none) (hindex : draft.content.length = index) :
    draft.addEvent ((Event.blockStart index block).payload plan stamp) =
      some { draft with current := some ⟨block.opening, none⟩ } := by
  rw [Draft.addEvent, type_payload]
  simp [Event.name, Event.payload, Event.fields, Draft.openBlock, index?, hstopped, hcurrent, hindex]

theorem addEvent_blockDelta (index : Nat) (delta : Delta) {current : OpenBlock}
    (hstopped : draft.stopped = false) (hcurrent : draft.current = some current)
    (hindex : draft.content.length = index) :
    draft.addEvent ((Event.blockDelta index delta).payload plan stamp) =
      (current.add delta.toJson).map fun filled => { draft with current := some filled } := by
  rw [Draft.addEvent, type_payload]
  simp [Event.name, Event.payload, Event.fields, Draft.fillBlock, index?, hstopped, hcurrent, hindex]
  cases current.add delta.toJson with
  | none => rfl
  | some filled => rfl

theorem addEvent_blockStop (index : Nat) {current : OpenBlock} (hstopped : draft.stopped = false)
    (hcurrent : draft.current = some current) (hindex : draft.content.length = index) :
    draft.addEvent ((Event.blockStop index).payload plan stamp) =
      some { draft with content := draft.content ++ [current.close], current := none } := by
  rw [Draft.addEvent, type_payload]
  simp [Event.name, Event.payload, Event.fields, Draft.closeBlock, index?, hstopped, hcurrent, hindex]

theorem addEvent_messageDelta (hstopped : draft.stopped = false) (hcurrent : draft.current = none)
    (hclosing : draft.closing = none) :
    draft.addEvent (Event.messageDelta.payload plan stamp) =
      some { draft with closing := some (Event.messageDelta.payload plan stamp) } := by
  rw [Draft.addEvent, type_payload]
  simp [Event.name, Draft.conclude, hstopped, hcurrent, hclosing]

theorem addEvent_messageStop (hstopped : draft.stopped = false) :
    draft.addEvent (Event.messageStop.payload plan stamp) = some { draft with stopped := true } := by
  rw [Draft.addEvent, type_payload]
  simp [Event.name, hstopped]

/-! ## All events -/

/-- A message after events. -/
def Draft.addEvents (plan : Plan) (stamp : Stamp) (draft : Draft) (events : List Event) :
    Option Draft :=
  events.foldlM (fun draft event => draft.addEvent (event.payload plan stamp)) draft

theorem addEvents_cons (draft : Draft) (event : Event) (events : List Event) :
    draft.addEvents plan stamp (event :: events) =
      (draft.addEvent (event.payload plan stamp)).bind (·.addEvents plan stamp events) := by
  rw [Draft.addEvents, List.foldlM_cons]
  rfl

theorem addEvents_append (draft : Draft) (events more : List Event) :
    draft.addEvents plan stamp (events ++ more) =
      (draft.addEvents plan stamp events).bind (·.addEvents plan stamp more) := by
  rw [Draft.addEvents, List.foldlM_append]
  rfl

theorem addEvents_deltas (index : Nat) (deltas : List Delta) {current : OpenBlock}
    (hstopped : draft.stopped = false) (hcurrent : draft.current = some current)
    (hindex : draft.content.length = index) :
    draft.addEvents plan stamp (deltas.map (.blockDelta index)) =
      (current.addAll deltas).map fun filled => { draft with current := some filled } := by
  induction deltas generalizing draft current with
  | nil =>
    show some draft = some { draft with current := some current }
    rw [← hcurrent]
  | cons delta deltas ih =>
    rw [List.map_cons, addEvents_cons, addEvent_blockDelta index delta hstopped hcurrent hindex,
      addAll_cons]
    cases current.add delta.toJson with
    | none => rfl
    | some filled => exact ih hstopped rfl hindex

/-- A message between two blocks, when those with the given content are closed. -/
def Draft.between (stamp : Stamp) (content : List Json) : Draft where
  message := some (openingMessage stamp)
  content
  current := none
  closing := none
  stopped := false

/-- One block more. -/
theorem addEvents_block (settings : StreamSettings) (content : List Json) {block : Block}
    (h : block.Readable) :
    (Draft.between stamp content).addEvents plan stamp
        (blockEvents settings content.length block) =
      some (Draft.between stamp (content ++ [block.toJson])) := by
  obtain ⟨current, hcurrent, hclose⟩ := filled settings h
  rw [blockEvents, addEvents_cons, addEvent_blockStart content.length block rfl rfl rfl,
    Option.bind_some, addEvents_append, addEvents_deltas content.length _ rfl rfl rfl, hcurrent,
    Option.map_some, Option.bind_some, addEvents_cons,
    addEvent_blockStop content.length rfl rfl rfl, hclose]
  rfl

/-- **Blocks in any number.**  They are closed one after the other, each with its own content. -/
theorem addEvents_blocks (plan : Plan) (stamp : Stamp) (settings : StreamSettings)
    (blocks : List Block) (h : ∀ block ∈ blocks, block.Readable) (content : List Json) :
    (Draft.between stamp content).addEvents plan stamp
        ((blocks.zipIdx content.length).flatMap fun (block, index) =>
          blockEvents settings index block) =
      some (Draft.between stamp (content ++ blocks.map Block.toJson)) := by
  induction blocks generalizing content with
  | nil =>
    rw [List.map_nil, List.append_nil]
    rfl
  | cons block blocks ih =>
    have hmore := ih (fun other hmem => h other (List.mem_cons_of_mem _ hmem))
      (content ++ [block.toJson])
    rw [List.length_append, List.length_singleton] at hmore
    rw [List.zipIdx_cons, List.flatMap_cons, addEvents_append,
      addEvents_block settings content (h block List.mem_cons_self), Option.bind_some, hmore,
      List.append_assoc]
    rfl

/-! ## The blocks of a plan -/

theorem serverToolUse_of_mem_blocks {plan : Plan} {use : ServerToolUse}
    (h : Block.serverToolUse use ∈ blocks plan) : Step.serverToolUse use ∈ plan.steps := by
  have htext : ∀ text citations, Block.serverToolUse use ∉ textBlocks text citations := by
    intro text citations hmem
    rw [textBlocks] at hmem
    split at hmem
    · exact absurd hmem List.not_mem_nil
    · exact absurd (List.mem_singleton.1 hmem) nofun
  rcases List.mem_append.1 h with hthinking | hsteps
  · rw [thinkingBlocks, Option.mem_toList] at hthinking
    obtain ⟨text, _, heq⟩ := Option.map_eq_some_iff.1 hthinking
    exact absurd heq nofun
  · obtain ⟨step, hstep, hmem⟩ := List.mem_flatMap.1 hsteps
    cases step with
    | filler length => exact absurd hmem (htext _ _)
    | literal text => exact absurd hmem (htext _ _)
    | echo value => exact absurd hmem (htext _ _)
    | toolCalls calls =>
      obtain ⟨call, _, heq⟩ := List.mem_map.1 hmem
      exact absurd heq nofun
    | serverToolUse other =>
      cases List.mem_singleton.1 hmem
      exact hstep
    | serverToolResult result => exact absurd (List.mem_singleton.1 hmem) nofun
    | cited text => exact absurd hmem (htext _ _)

theorem readable_of_mem_blocks {plan : Plan}
    (h : ∀ use, Step.serverToolUse use ∈ plan.steps → Exact Json.maxDepth use.input) :
    ∀ block ∈ blocks plan, block.Readable := by
  intro block hmem
  cases block with
  | serverToolUse use => exact h use (serverToolUse_of_mem_blocks hmem)
  | thinking content => trivial
  | text content citations => trivial
  | toolUse id name arguments => trivial
  | serverToolResult result => trivial

/-! ## The whole message -/

/-- The counter of searches is found in its field, where there are any. -/
theorem lookup_searchesField (name : String) (plan : Plan) (stamp : Stamp) :
    Json.lookup name (searchesField plan).reverse =
      if name = "server_tool_use" then (shown plan stamp).serverTools else none := by
  by_cases hnone : webSearches plan = 0
  · simp [searchesField, shown, hnone]
  · simp [searchesField, shown, hnone, eq_comm]

/-- Both usages tell the tokens and the searches alike. -/
theorem get?_closingUsage (plan : Plan) (stamp : Stamp) :
    (closingUsage plan stamp.usage).get? "output_tokens" =
        some (.nat stamp.usage.outputTokens.toNat)
      ∧ (closingUsage plan stamp.usage).get? "server_tool_use" = (shown plan stamp).serverTools := by
  simp [closingUsage, lookup_append, lookup_searchesField _ _ stamp]

theorem get?_usageJson (plan : Plan) (stamp : Stamp) :
    (usageJson plan stamp.usage).get? "output_tokens" =
        some (.nat stamp.usage.outputTokens.toNat)
      ∧ (usageJson plan stamp.usage).get? "server_tool_use" = (shown plan stamp).serverTools := by
  simp [usageJson, lookup_append, lookup_searchesField _ _ stamp]

theorem ofEvents?_events (settings : StreamSettings) (plan : Plan) (stamp : Stamp)
    (h : ∀ block ∈ blocks plan, block.Readable) :
    Answer.ofEvents? ((events settings plan).map (Event.payload plan stamp)) =
      some (shown plan stamp) := by
  have hfold : ((events settings plan).map (Event.payload plan stamp)).foldlM
      Draft.addEvent .empty =
        some
          { Draft.between stamp ((blocks plan).map Block.toJson) with
            closing := some (Event.messageDelta.payload plan stamp)
            stopped := true } := by
    have hblocks := addEvents_blocks plan stamp settings (blocks plan) h []
    rw [List.nil_append] at hblocks
    rw [List.foldlM_map]
    show Draft.empty.addEvents plan stamp (events settings plan) = _
    rw [events, addEvents_cons, addEvent_messageStart, Option.bind_some, addEvents_append]
    refine (congrArg (Option.bind · _) hblocks).trans ?_
    rw [Option.bind_some, addEvents_cons, addEvent_messageDelta rfl rfl rfl, Option.bind_some,
      addEvents_cons, addEvent_messageStop rfl]
    rfl
  obtain ⟨htokens, htools⟩ := get?_closingUsage plan stamp
  have hid : (openingMessage stamp).getText? "id" = some stamp.id := by
    simp [openingMessage, Json.getText?, Json.asText?]
  have hmodel : (openingMessage stamp).getText? "model" = some stamp.model := by
    simp [openingMessage, Json.getText?, Json.asText?]
  have hdelta : (Event.messageDelta.payload plan stamp).get? "delta" =
      some (.object [("stop_reason", .str (stopReason plan)), ("stop_sequence", .null)]) := by
    simp [Event.payload, Event.fields]
  have husage : (Event.messageDelta.payload plan stamp).get? "usage" =
      some (closingUsage plan stamp.usage) := by
    simp [Event.payload, Event.fields]
  have hreason : (Json.object
      [("stop_reason", .str (stopReason plan)), ("stop_sequence", .null)]).getText? "stop_reason" =
        some (stopReason plan) := by
    simp [Json.getText?, Json.asText?]
  rw [Answer.ofEvents?, hfold]
  simp [Draft.answer?, Draft.between, hid, hmodel, hdelta, husage, hreason, htokens, htools, shown]

theorem ofDocument?_document (plan : Plan) (stamp : Stamp) :
    Answer.ofDocument? (document plan stamp) = some (shown plan stamp) := by
  obtain ⟨htokens, htools⟩ := get?_usageJson plan stamp
  have husage : (document plan stamp).get? "usage" = some (usageJson plan stamp.usage) := by
    simp [document]
  have hid : (document plan stamp).getText? "id" = some stamp.id := by
    simp [document, Json.getText?, Json.asText?]
  have hmodel : (document plan stamp).getText? "model" = some stamp.model := by
    simp [document, Json.getText?, Json.asText?]
  have hcontent : (document plan stamp).get? "content" =
      some (.arr ((blocks plan).map Block.toJson)) := by
    simp [document]
  have hreason : (document plan stamp).getText? "stop_reason" = some (stopReason plan) := by
    simp [document, Json.getText?, Json.asText?]
  simp [Answer.ofDocument?, hid, hmodel, hcontent, hreason, husage, htokens, htools, shown,
    Json.asItems?]

/-! ## Types and signatures -/

/-- The type of a block. -/
def Block.type : Block → String
  | .thinking _ => "thinking"
  | .text _ _ => "text"
  | .toolUse _ _ _ => "tool_use"
  | .serverToolUse _ => "server_tool_use"
  | .serverToolResult result => result.blockType

theorem type_toJson (block : Block) : block.toJson.getText? "type" = some block.type := by
  cases block with
  | text content citations =>
    cases citations <;>
      simp [Block.toJson, textJson, citationsField, Json.getText?, Json.asText?, Block.type]
  | _ =>
    simp [Block.toJson, thinkingJson, useJson, resultJson, Json.getText?, Json.asText?, Block.type]

/-- The block of a tool's result can be told by the end of its type. -/
theorem blockType_ne (result : ServerToolResult) {type : String}
    (h : ¬ "_tool_result".toList <:+ type.toList) : result.blockType ≠ type := by
  rintro rfl
  rw [ServerToolResult.blockType, String.toList_append] at h
  exact h (List.suffix_append _ _)

/-- Only reasoning has the type of reasoning. -/
theorem eq_thinking_of_type {block : Block} (h : block.type = "thinking") :
    ∃ content, block = .thinking content := by
  cases block with
  | thinking content => exact ⟨content, rfl⟩
  | text content citations => exact absurd h (by decide : "text" ≠ "thinking")
  | toolUse id name arguments => exact absurd h (by decide : "tool_use" ≠ "thinking")
  | serverToolUse use => exact absurd h (by decide : "server_tool_use" ≠ "thinking")
  | serverToolResult result => exact absurd h (blockType_ne result (by decide))

/-- A block that calls itself reasoning is signed by what it says. -/
theorem signature_of_thinking {block : Block}
    (h : block.toJson.getText? "type" = some "thinking") :
    ∃ text, block.toJson.getText? "thinking" = some text ∧
      block.toJson.getText? "signature" = some (thinkingSignature text) := by
  rw [type_toJson] at h
  obtain ⟨content, rfl⟩ := eq_thinking_of_type (Option.some.inj h)
  refine ⟨content, ?_, ?_⟩
  · simp [Block.toJson, thinkingJson, Json.getText?, Json.asText?]
  · simp [Block.toJson, thinkingJson, Json.getText?, Json.asText?]

/-! ## The whole answer -/

/-- **A stream of events and a document show the same message.**  A client that
fills the blocks event by event and one that reads the document both hold `shown`,
whatever the texts and the arguments of calls are, JSON or not.  The inputs of the
provider's tools, which travel as text, have no floating-point numbers and are
nested at most 127 levels. -/
theorem events_fill_document (settings : StreamSettings) (plan : Plan) (stamp : Stamp)
    (h : ∀ use, Step.serverToolUse use ∈ plan.steps → Exact 127 use.input) :
    Answer.ofEvents? ((events settings plan).map (Event.payload plan stamp)) =
        some (shown plan stamp)
      ∧ Answer.ofDocument? (document plan stamp) = some (shown plan stamp)
      ∧ (∀ block ∈ (shown plan stamp).content, block.getText? "type" = some "thinking" →
          ∃ text, block.getText? "thinking" = some text ∧
            block.getText? "signature" = some (thinkingSignature text))
      ∧ frames settings plan stamp =
          ((events settings plan).map (Event.payload plan stamp)).map (fun payload =>
            Frame.ofJson (payload.getText? "type") payload)
      ∧ (settings.argumentChunk? ≠ none →
          EventStream.written (acts settings plan stamp) = frames settings plan stamp) := by
  refine ⟨ofEvents?_events settings plan stamp (readable_of_mem_blocks h),
    ofDocument?_document plan stamp, ?_, ?_, written_acts⟩
  · intro block hmem htype
    obtain ⟨source, _, rfl⟩ := List.mem_map.1 hmem
    exact signature_of_thinking htype
  · rw [frames, List.map_map]
    refine List.map_congr_left fun event _ => ?_
    rw [Function.comp_apply, type_payload]

/-- A search with a nested input, between calls whose arguments are no JSON text
and a result that is a floating-point number. -/
def searchPlan : Plan where
  label := "search"
  reasoning := some 3
  steps :=
    [.toolCalls
      [{ id := "call_1", name := "weather", arguments := "" },
       { id := "call_2", name := "weather", arguments := "\x7bcity" }],
     .serverToolUse
      { id := "srvtoolu_1"
        name := "web_search"
        input := .object
          [("query", .str "line\nbreak"), ("limits", .arr [.int (-3), .nat 5, .obj []])] },
     .serverToolResult
      { toolUseId := "srvtoolu_1"
        name := "web_search"
        outcome := .result (.num (.real (Binary64.ofNat 1))) },
     .cited
      { body := .literal "as it is said"
        citations := [{ kind := "web", url := "u", title := "t", citedText := "said" }] }]

theorem events_fill_searchPlan :
    (∀ use, Step.serverToolUse use ∈ searchPlan.steps → Exact 127 use.input)
      ∧ Answer.ofEvents? ((events {} searchPlan).map (Event.payload searchPlan default)) =
          some (shown searchPlan default)
      ∧ (shown searchPlan default).content.length = 6 := by
  have hexact : ∀ use, Step.serverToolUse use ∈ searchPlan.steps → Exact 127 use.input := by
    intro use hmem
    have huse : use.input = .object
        [("query", .str "line\nbreak"), ("limits", .arr [.int (-3), .nat 5, .obj []])] := by
      simp only [searchPlan, List.mem_cons, List.not_mem_nil, or_false] at hmem
      rcases hmem with h | h | h | h
      · exact absurd h nofun
      · cases h
        rfl
      · exact absurd h nofun
      · exact absurd h nofun
    have hlimits : Exact 126 (.arr [.int (-3), .nat 5, .obj []]) := by
      refine .arr fun v hv => ?_
      simp only [List.mem_cons, List.not_mem_nil, or_false] at hv
      rcases hv with rfl | rfl | rfl
      · exact .num (by decide)
      · exact .num (by decide)
      · exact .obj .nil nofun
    rw [huse]
    exact .object (by simp [Exact.str, hlimits])
  exact ⟨hexact, (events_fill_document {} searchPlan default hexact).1, rfl⟩

end ScriptedChat.Message
