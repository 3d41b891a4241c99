import ScriptedChat.Proofs.Completion.Grammar
import ScriptedChat.Proofs.Message.Content
import ScriptedChat.Proofs.Message.Grammar
import ScriptedChat.Proofs.SameStory
import ScriptedChat.Proofs.Script.Entries

/-!
# The arguments of tools

The arguments of a call go from a script into a plan, and from there into a
document or into the fragments of a stream, in two protocols.  They are the same
everywhere: the text of a value, or a text as it stands in the script.

* `scriptedCalls`, `said_plan` — the calls that an instruction asks for, and the
  calls of its plan;
* `argumentValue`, `argumentText_eq`, `Survives` — what arguments are on the wire;
* `filter_flatMap_zipIdx` — what comes under one number;
* `Completion.partsOf`, `Completion.partsOf_chunks` — the parts of one call in a
  stream of chunks;
* `Message.numberedUses`, `Message.fragmentsOf`, `Message.join_fragmentsOf` — the
  blocks of calls with their numbers, and the fragments of one block in a stream
  of events;
* `arguments_survive` — all of it, for every call of every instruction.
-/

namespace ScriptedChat

/-! ## Calls of a script -/

namespace Instruction

open Json

/-- The calls with a name that an entry of some kind asks for. -/
def kindCalls (kind : String) (value : Json) : List (String × Option Json) :=
  if kind = "tool_call" then named ((calls? value).getD []) else []

/-- The calls with a name that an entry asks for. -/
def entryCalls : Json → List (String × Option Json)
  | .obj [(kind, value)] => kindCalls kind value
  | _ => []

/-- The calls with a name that an instruction asks for, in its order. -/
def scriptedCalls (instruction : Json) : List (String × Option Json) :=
  (entryList instruction).flatMap entryCalls

/-- What a call of a script has to say. -/
def toSay (call : String × Option Json) : String × String :=
  (call.1, argumentText call.2)

/-- What the calls of a step say. -/
def saidBy (step : Step) : List (String × String) :=
  step.calls.map said

theorem said_stepOf? (seed : String) (position : Nat) (lastUse : Option String) (kind : String)
    (value : Json) :
    (stepOf? seed position lastUse kind value).elim [] saidBy = (kindCalls kind value).map toSay := by
  unfold kindCalls
  split
  · rename_i hkind
    subst hkind
    rw [stepOf?_calls]
    cases calls? value with
    | none => rfl
    | some calls =>
      rw [Option.bind_some, Option.getD_some]
      refine Eq.trans ?_ (said_toolCalls? seed position calls)
      cases toolCalls? seed position calls <;> rfl
  · rename_i hkind
    cases hstep : stepOf? seed position lastUse kind value with
    | none => rfl
    | some step => rw [Option.elim_some, saidBy, (stepOf?_kind hstep).1 hkind]; rfl

theorem said_step? (seed : String) (position : Nat) (lastUse : Option String) (entry : Json) :
    (step? seed position lastUse entry).elim [] saidBy = (entryCalls entry).map toSay := by
  cases entry with
  | obj fields =>
    match fields with
    | [] => rfl
    | [(kind, value)] => exact said_stepOf? seed position lastUse kind value
    | _ :: _ :: _ => rfl
  | _ => rfl

/-- **The calls of a plan are those of its instruction**, one for one and in order. -/
theorem said_plan {scope : String} {index : Nat} {instruction : Json} {plan : Plan}
    (h : plan? scope index instruction = some plan) :
    plan.calls.map said = (scriptedCalls instruction).map toSay := by
  obtain ⟨parts, -, -, -, hentries, hsteps⟩ := plan?_eq_some h
  have hsaid := flatMap_stepsFrom (g := fun entry _ => (entryCalls entry).map toSay)
    (said_step? (seed scope index plan.label)) 0 none parts.entries
  rw [← hsteps, hentries] at hsaid
  calc plan.calls.map said
    _ = plan.steps.flatMap saidBy := by rw [Plan.calls, List.map_flatMap]; rfl
    _ = (entryList instruction).zipIdx.flatMap fun entry => (entryCalls entry.1).map toSay :=
      hsaid
    _ = (entryList instruction).flatMap fun entry => (entryCalls entry).map toSay := by
      conv_rhs => rw [← List.zipIdx_map_fst 0 (entryList instruction), List.flatMap_map]
    _ = (scriptedCalls instruction).map toSay := by rw [scriptedCalls, List.map_flatMap]

end Instruction

/-! ## Arguments -/

/-- The value of the arguments of a call: an empty object where there are none. -/
def argumentValue : Option Json → Json
  | none => .obj []
  | some .null => .obj []
  | some value => value

/-- Arguments that a script gives, their text on the wire, and their value in a message. -/
structure Survives (args : Option Json) (text : String) (input : Json) : Prop where
  /-- a text is passed on as it is -/
  literal : ∀ content, args = some (.str content) → text = content
  /-- and denotes a value if it is a JSON text -/
  denoted : ∀ content, args = some (.str content) →
    ∀ value, Json.readText content = .ok value → input = value
  /-- or else itself -/
  undenoted : ∀ content, args = some (.str content) →
    ∀ error, Json.readText content = .error error → input = .str content
  /-- any other value is written down -/
  written : (∀ content, args ≠ some (.str content)) → text = (argumentValue args).compact
  /-- and read back -/
  kept : (∀ content, args ≠ some (.str content)) →
    Json.Exact Json.maxDepth (argumentValue args) → input = argumentValue args

theorem argumentText_eq {args : Option Json} (h : ∀ content, args ≠ some (.str content)) :
    Instruction.argumentText args = (argumentValue args).compact := by
  cases args with
  | none => rfl
  | some value =>
    cases value with
    | str content => exact absurd rfl (h content)
    | null => rfl
    | _ => rfl

/-- **What becomes of arguments.** -/
theorem survives_argumentText (args : Option Json) :
    Survives args (Instruction.argumentText args)
      (Message.toolInput (Instruction.argumentText args)) where
  literal := by
    rintro content rfl
    rfl
  denoted := by
    rintro content rfl value hvalue
    show Message.toolInput content = value
    rw [Message.toolInput, hvalue]
  undenoted := by
    rintro content rfl error herror
    show Message.toolInput content = .str content
    rw [Message.toolInput, herror]
  written := argumentText_eq
  kept := by
    intro hstr hexact
    rw [argumentText_eq hstr, Message.toolInput, Json.readText_compact hexact]

/-! ## Numbers -/

/-- **What comes under one number.**  If each item comes in parts that carry its number, the parts
with a number are those of its item. -/
theorem filter_flatMap_zipIdx {α β : Type} {parts : α → Nat → List β} {number? : β → Option Nat}
    (h : ∀ item i, ∀ part ∈ parts item i, number? part = some i) {items : List α} {j : Nat}
    {item : α} (hitem : items[j]? = some item) (k : Nat) :
    ((items.zipIdx k).flatMap fun (item, i) => parts item i).filter
        (fun part => number? part = some (k + j)) =
      parts item (k + j) := by
  induction items generalizing j k with
  | nil => exact absurd hitem nofun
  | cons first items ih =>
    rw [List.zipIdx_cons, List.flatMap_cons, List.filter_append]
    cases j with
    | zero =>
      obtain rfl := Option.some.inj hitem
      have hfirst : ∀ part ∈ parts first k, decide (number? part = some (k + 0)) = true :=
        fun part hmem => decide_eq_true (h first k part hmem)
      -- the items after the first have greater numbers
      have hrest : ∀ part ∈ (items.zipIdx (k + 1)).flatMap fun (item, i) => parts item i,
          ¬ decide (number? part = some (k + 0)) = true := by
        intro part hmem
        obtain ⟨⟨other, i⟩, hother, hpart⟩ := List.mem_flatMap.1 hmem
        have hlarger := List.le_snd_of_mem_zipIdx hother
        rw [h other i part hpart, decide_eq_true_eq, Option.some_inj]
        simp only at hlarger
        omega
      rw [List.filter_eq_self.2 hfirst, List.filter_eq_nil_iff.2 hrest, List.append_nil]
      rfl
    | succ j =>
      have hfirst : ∀ part ∈ parts first k, ¬ decide (number? part = some (k + (j + 1))) = true := by
        intro part hmem
        rw [h first k part hmem, decide_eq_true_eq, Option.some_inj]
        omega
      have hnumber : k + (j + 1) = k + 1 + j := by omega
      show List.filter _ (parts first k) ++ _ = _
      rw [List.filter_eq_nil_iff.2 hfirst, List.nil_append, hnumber]
      exact ih hitem (k + 1)

/-! ## Chunks -/

namespace Completion

/-- The parts of tool calls that a chunk carries. -/
def callParts (chunk : Json) : List Json :=
  (fieldItems "choices" chunk).flatMap fun choice =>
    (choice.get? "delta").elim [] (fieldItems "tool_calls")

/-- The number of the call that a part belongs to. -/
def partNumber? (part : Json) : Option Nat :=
  (part.get? "index").bind Json.asNat?

/-- The parts of the call with a number, in the order in which they come. -/
def partsOf (number : Nat) (chunks : List Json) : List Json :=
  (chunks.flatMap callParts).filter fun part => partNumber? part = some number

/-- A text in the function of a part. -/
def partText? (field : String) (part : Json) : Option String :=
  (part.get? "function").bind (·.getText? field)

/-- The first part of a call, without arguments. -/
def firstPart (index : Nat) (call : ToolCall) : Json :=
  .object
    [("index", .nat index), ("id", .str call.id), ("type", .str "function"),
     ("function", .object [("name", .str call.name), ("arguments", .str "")])]

/-- A further part of a call. -/
def argumentPart (index : Nat) (fragment : String) : Json :=
  .object [("index", .nat index), ("function", .object [("arguments", .str fragment)])]

/-- All parts of a call. -/
def wholeCall (settings : StreamSettings) (call : ToolCall) (index : Nat) : List Json :=
  firstPart index call ::
    (Text.charFragments settings.argumentChunk call.arguments).map (argumentPart index)

theorem partNumber?_firstPart (index : Nat) (call : ToolCall) :
    partNumber? (firstPart index call) = some index := by
  simp [partNumber?, firstPart]

theorem partNumber?_argumentPart (index : Nat) (fragment : String) :
    partNumber? (argumentPart index fragment) = some index := by
  simp [partNumber?, argumentPart]

theorem partNumber?_wholeCall (settings : StreamSettings) (call : ToolCall) (index : Nat) :
    ∀ part ∈ wholeCall settings call index, partNumber? part = some index := by
  intro part hmem
  rcases List.mem_cons.1 hmem with rfl | hmem
  · exact partNumber?_firstPart index call
  · obtain ⟨fragment, -, rfl⟩ := List.mem_map.1 hmem
    exact partNumber?_argumentPart index fragment

/-- The parts of calls in a delta. -/
def Delta.parts (delta : Delta) : List Json :=
  fieldItems "tool_calls" delta.toJson

theorem parts_toolCall (index : Nat) (call : ToolCall) :
    (Delta.toolCall index call.id call.name).parts = [firstPart index call] := by
  simp [Delta.parts, Delta.toJson, fieldItems, firstPart, Json.asItems?]

theorem parts_callDeltas (settings : StreamSettings) (index : Nat) (call : ToolCall) :
    (callDeltas settings index call).flatMap Delta.parts = wholeCall settings call index := by
  have hargument (fragment : String) :
      (Delta.arguments index fragment).parts = [argumentPart index fragment] := by
    simp [Delta.parts, Delta.toJson, fieldItems, argumentPart, Json.asItems?]
  rw [callDeltas, List.flatMap_cons, parts_toolCall, List.flatMap_map, wholeCall, List.map_eq_flatMap]
  simp only [hargument]
  rfl

/-- The delta says nothing of a tool call. -/
def Delta.Speaks : Delta → Prop
  | .toolCall _ _ _ => False
  | .arguments _ _ => False
  | _ => True

theorem Delta.Speaks.parts {delta : Delta} (h : delta.Speaks) : delta.parts = [] := by
  cases delta with
  | toolCall index id name => exact h.elim
  | arguments index fragment => exact h.elim
  | _ => simp [Delta.parts, Delta.toJson, fieldItems]

theorem parts_eq_nil {deltas : List Delta} (h : ∀ delta ∈ deltas, delta.Speaks) :
    deltas.flatMap Delta.parts = [] :=
  List.flatMap_eq_nil_iff.2 fun delta hmem => (h delta hmem).parts

theorem speaks_contentDeltas (settings : StreamSettings) (text : String)
    (references : List Reference) :
    ∀ delta ∈ contentDeltas settings text references, delta.Speaks := by
  intro delta hmem
  rcases List.mem_append.1 hmem with hfragment | hreferences
  · obtain ⟨fragment, -, rfl⟩ := List.mem_map.1 hfragment
    trivial
  · split at hreferences
    · exact absurd hreferences List.not_mem_nil
    · rw [List.mem_singleton.1 hreferences]
      trivial

theorem speaks_reasoningDeltas (settings : StreamSettings) (reasoning : Option String) :
    ∀ delta ∈ reasoningDeltas settings reasoning, delta.Speaks := by
  cases reasoning with
  | none => exact fun _ hmem => absurd hmem List.not_mem_nil
  | some text =>
    intro delta hmem
    rcases List.mem_append.1 hmem with hfragment | hdetails
    · obtain ⟨fragment, -, rfl⟩ := List.mem_map.1 hfragment
      trivial
    · rw [List.mem_singleton.1 hdetails]
      trivial

/-- The parts of calls in segments, by induction: a call comes as a whole, and the next one has the
next number. -/
theorem parts_segmentDeltas (settings : StreamSettings) (index : Nat) (segments : List Segment) :
    (segmentDeltas settings index segments).flatMap Delta.parts =
      ((segments.filterMap Segment.call?).zipIdx index).flatMap fun (call, i) =>
        wholeCall settings call i := by
  induction segments generalizing index with
  | nil => rfl
  | cons segment segments ih =>
    cases segment with
    | content text references =>
      rw [segmentDeltas, List.flatMap_append,
        parts_eq_nil (speaks_contentDeltas settings text references), List.nil_append, ih]
      rfl
    | toolCall call =>
      rw [segmentDeltas, List.flatMap_append, parts_callDeltas, ih]
      rfl

theorem callParts_choice (stamp : Stamp) (delta reason : Json) :
    callParts (chunkJson stamp [choiceJson delta reason] []) = fieldItems "tool_calls" delta := by
  simp [callParts, chunkJson, choiceJson, fieldItems, Json.asItems?]

theorem callParts_delta (stamp : Stamp) (delta : Delta) :
    callParts ((Chunk.delta delta).toJson stamp) = delta.parts :=
  callParts_choice stamp delta.toJson .null

theorem callParts_usage (stamp : Stamp) : callParts (Chunk.usage.toJson stamp) = [] := by
  simp [callParts, Chunk.toJson, chunkJson, fieldItems, Json.asItems?]

/-- **The parts of calls in a stream are the calls of its plan**, numbered in their order. -/
theorem callParts_chunks (settings : StreamSettings) (plan : Plan) (stamp : Stamp) :
    ((chunks settings plan stamp).map (Chunk.toJson stamp)).flatMap callParts =
      plan.calls.zipIdx.flatMap fun (call, i) => wholeCall settings call i := by
  have hrole : Delta.role.parts = [] := Delta.Speaks.parts trivial
  have hlast : (if stamp.includeUsage then [Chunk.usage] else []).flatMap
      (fun chunk => callParts (chunk.toJson stamp)) = [] := by
    cases stamp.includeUsage with
    | false => rfl
    | true => simp [callParts_usage]
  have hdelta (delta : Delta) := callParts_delta stamp delta
  have hfinish : callParts ((Chunk.finish (finishReason plan)).toJson stamp) = [] :=
    callParts_choice stamp (.obj []) _
  rw [List.flatMap_map, chunks, List.flatMap_append, List.flatMap_map, List.flatMap_cons, hlast,
    hfinish]
  simp only [hdelta]
  rw [deltas, List.flatMap_cons, List.flatMap_append, hrole,
    parts_eq_nil (speaks_reasoningDeltas settings _), parts_segmentDeltas]
  simp only [List.nil_append, List.append_nil]
  rw [render, calls_segments]
  rfl

theorem partsOf_chunks {plan : Plan} {number : Nat} {call : ToolCall}
    (h : plan.calls[number]? = some call) (settings : StreamSettings) (stamp : Stamp) :
    partsOf number ((chunks settings plan stamp).map (Chunk.toJson stamp)) =
      wholeCall settings call number := by
  have hparts := filter_flatMap_zipIdx (partNumber?_wholeCall settings) h 0
  rw [Nat.zero_add] at hparts
  rw [partsOf, callParts_chunks]
  exact hparts

/-- **The parts of a call**: one with its name, and fragments that make up its arguments. -/
theorem partsOf_call {plan : Plan} {number : Nat} {call : ToolCall}
    (h : plan.calls[number]? = some call) (settings : StreamSettings) (stamp : Stamp) :
    ∃ first rest,
      partsOf number ((chunks settings plan stamp).map (Chunk.toJson stamp)) = first :: rest ∧
        partText? "name" first = some call.name ∧ partText? "arguments" first = some "" ∧
        (∀ part ∈ rest, partText? "name" part = none) ∧
        String.join (rest.filterMap (partText? "arguments")) = call.arguments := by
  have hargument : partText? "arguments" ∘ argumentPart number = some := by
    funext fragment
    simp [partText?, argumentPart, Json.getText?, Json.asText?]
  refine ⟨_, _, partsOf_chunks h settings stamp, ?_, ?_, ?_, ?_⟩
  · simp [partText?, firstPart, Json.getText?, Json.asText?]
  · simp [partText?, firstPart, Json.getText?, Json.asText?]
  · intro part hmem
    obtain ⟨fragment, -, rfl⟩ := List.mem_map.1 hmem
    simp [partText?, argumentPart, Json.getText?]
  · rw [List.filterMap_map, hargument, List.filterMap_some, Text.join_charFragments]

end Completion

/-! ## Events -/

namespace Message

/-- The blocks of calls, each with its number among all blocks. -/
def numberedUses (content : List Json) : List (Json × Nat) :=
  content.zipIdx.filter fun block => block.1.getText? "type" = some "tool_use"

/-- The fragments of the arguments of the block with a number, in the order in which they come. -/
def fragmentsOf (number : Nat) (events : List Json) : List String :=
  (events.filter fun event => index? event = some number).filterMap (deltaText? "partial_json")

/-- The numbered blocks of calls, before they are written. -/
theorem numberedUses_toJson (blocks : List Block) :
    numberedUses (blocks.map Block.toJson) =
      (blocks.zipIdx.filter fun block => block.1.type = "tool_use").map
        fun block => (block.1.toJson, block.2) := by
  rw [numberedUses, List.zipIdx_map, List.filter_map]
  congr 2
  funext block
  simp [type_toJson]

/-- **The block of every call has a number.** -/
theorem exists_block {plan : Plan} {j : Nat} {call : ToolCall} (h : plan.calls[j]? = some call) :
    ∃ number, (blocks plan)[number]? = some (toolUseBlock call) ∧
      (numberedUses ((blocks plan).map Block.toJson))[j]? =
        some ((toolUseBlock call).toJson, number) := by
  -- two calls may be written alike, so the number is found before the blocks are written
  have hfirsts : ((blocks plan).zipIdx.filter fun block => block.1.type = "tool_use").map Prod.fst =
      plan.calls.map toolUseBlock := by
    rw [← toolUse_blocks, blocksOf]
    conv_rhs => rw [← List.zipIdx_map_fst 0 (blocks plan), List.filter_map]
    rfl
  have hblock := congrArg (·[j]?) hfirsts
  simp only [List.getElem?_map, h, Option.map_some] at hblock
  obtain ⟨⟨block, number⟩, hget, rfl⟩ := Option.map_eq_some_iff.1 hblock
  have hmem := (List.mem_filter.1 (List.mem_of_getElem? hget)).1
  refine ⟨number, List.mk_mem_zipIdx_iff_getElem?.1 hmem, ?_⟩
  rw [numberedUses_toJson, List.getElem?_map, hget]
  rfl

variable {plan : Plan} {stamp : Stamp}

/-- The events of one block, as they are written. -/
def blockPayloads (settings : StreamSettings) (plan : Plan) (stamp : Stamp) (block : Block)
    (index : Nat) : List Json :=
  (blockEvents settings index block).map (Event.payload plan stamp)

theorem index?_blockPayloads (settings : StreamSettings) (plan : Plan) (stamp : Stamp)
    (block : Block) (index : Nat) :
    ∀ payload ∈ blockPayloads settings plan stamp block index, index? payload = some index := by
  intro payload hmem
  obtain ⟨event, hevent, rfl⟩ := List.mem_map.1 hmem
  rcases List.mem_cons.1 hevent with rfl | hevent
  · exact (isBlockEvent_blockStart index block).2
  · rcases List.mem_append.1 hevent with hdelta | hstop
    · obtain ⟨delta, -, rfl⟩ := List.mem_map.1 hdelta
      exact (isBlockEvent_blockDelta index delta).2
    · rw [List.mem_singleton.1 hstop]
      exact (isBlockEvent_blockStop index).2

/-- The events with the number of a block are its own. -/
theorem filter_index?_events {number : Nat} {block : Block}
    (h : (blocks plan)[number]? = some block) (settings : StreamSettings) :
    ((events settings plan).map (Event.payload plan stamp)).filter
        (fun event => index? event = some number) =
      blockPayloads settings plan stamp block number := by
  have hblocks := filter_flatMap_zipIdx (index?_blockPayloads settings plan stamp) h 0
  have hother (events : List Event)
      (hnone : ∀ event ∈ events, index? (event.payload plan stamp) = none) :
      (events.map (Event.payload plan stamp)).filter (fun event => index? event = some number) =
        [] := by
    refine List.filter_eq_nil_iff.2 fun payload hmem => ?_
    obtain ⟨event, hevent, rfl⟩ := List.mem_map.1 hmem
    simp [hnone event hevent]
  have hstart : ∀ event ∈ [Event.messageStart], index? (event.payload plan stamp) = none := by
    simp [index?, Event.payload, Event.fields]
  have hend : ∀ event ∈ [Event.messageDelta, .messageStop],
      index? (event.payload plan stamp) = none := by
    simp [index?, Event.payload, Event.fields]
  rw [Nat.zero_add] at hblocks
  rw [events, ← List.singleton_append, List.map_append, List.filter_append, List.map_append,
    List.filter_append, hother _ hstart, hother _ hend, List.nil_append, List.append_nil,
    List.map_flatMap]
  exact hblocks

/-- A block that is filled with pieces of arguments comes in these pieces. -/
theorem fragmentsOf_events {number : Nat} {block : Block}
    (h : (blocks plan)[number]? = some block) {settings : StreamSettings} {fragments : List String}
    (hdeltas : block.deltas settings = fragments.map .inputJson) :
    fragmentsOf number ((events settings plan).map (Event.payload plan stamp)) = fragments := by
  have hfragment : ∀ fragment,
      (Delta.inputJson fragment).toJson.getText? "partial_json" = some fragment := by
    simp [Delta.toJson, Json.getText?, Json.asText?]
  have hstart : deltaText? "partial_json"
      ((Event.blockStart number block).payload plan stamp) = none := by
    simp [deltaText?, Event.payload, Event.fields]
  have hstop : deltaText? "partial_json" ((Event.blockStop number).payload plan stamp) = none := by
    simp [deltaText?, Event.payload, Event.fields]
  rw [fragmentsOf, filter_index?_events h, blockPayloads, blockEvents, List.map_cons,
    List.filterMap_cons_none hstart, List.map_append, List.filterMap_append, List.map_singleton,
    List.filterMap_cons_none hstop, List.filterMap_nil, List.append_nil, List.map_map]
  show (deltaEvents plan stamp number (block.deltas settings)).filterMap
    (deltaText? "partial_json") = fragments
  rw [hdeltas, fragments_deltaEvents .inputJson hfragment]

theorem join_fragmentsOf {number : Nat} {call : ToolCall}
    (h : (blocks plan)[number]? = some (toolUseBlock call)) (settings : StreamSettings) :
    String.join (fragmentsOf number ((events settings plan).map (Event.payload plan stamp))) =
      call.arguments := by
  obtain ⟨first, more, hdeltas, hjoin, -⟩ := exists_inputDeltas settings call.arguments
  rw [fragmentsOf_events h hdeltas, hjoin]

/-- The frames carry the events under the names that the events give themselves. -/
theorem frames_eq (settings : StreamSettings) (plan : Plan) (stamp : Stamp) :
    frames settings plan stamp =
      ((events settings plan).map (Event.payload plan stamp)).map fun event =>
        Frame.ofJson (event.getText? "type") event := by
  rw [frames, List.map_map]
  refine List.map_congr_left fun event _ => ?_
  rw [Function.comp_apply, type_payload]

end Message

/-! ## All of it -/

theorem calls_resolve (echoed : Echo → String) (plan : Plan) :
    (plan.resolve echoed).calls = plan.calls := by
  rw [Plan.calls, Plan.resolve, List.flatMap_map, Plan.calls]
  refine List.flatMap_congr fun step _ => ?_
  cases step <;> rfl

/-- A chat completion shows a call under a number, in one document and in a stream. -/
structure ShownInCompletion (plan : Plan) (settings : StreamSettings) (stamp : Stamp)
    (number : Nat) (name text : String) : Prop where
  document : ∃ answer call,
    Completion.Answer.ofDocument? (Completion.document plan stamp) = some answer ∧
      answer.reply.calls[number]? = some call ∧ call.name = name ∧ call.arguments = text
  written : settings.argumentChunk? ≠ none →
    (stamp.includeUsage = true → stamp.usage.totalTokens? ≠ none) →
      EventStream.written (Completion.acts settings plan stamp) =
        Completion.frames settings plan stamp
  stream : ∃ chunks first rest,
    Completion.frames settings plan stamp = chunks.map (Frame.ofJson none) ++ [Frame.done] ∧
      Completion.partsOf number chunks = first :: rest ∧
      Completion.partText? "name" first = some name ∧
      Completion.partText? "arguments" first = some "" ∧
      (∀ part ∈ rest, Completion.partText? "name" part = none) ∧
      String.join (rest.filterMap (Completion.partText? "arguments")) = text

/-- A message shows a call under a number, in one document and, under the number that its block has
there, in a stream. -/
def ShownInMessage (plan : Plan) (settings : StreamSettings) (stamp : Stamp) (number : Nat)
    (name text : String) (input : Json) : Prop :=
  ∃ answer block blockNumber events,
    Message.Answer.ofDocument? (Message.document plan stamp) = some answer ∧
      (Message.numberedUses answer.content)[number]? = some (block, blockNumber) ∧
      block.getText? "name" = some name ∧ block.get? "input" = some input ∧
      (settings.argumentChunk? ≠ none →
        EventStream.written (Message.acts settings plan stamp) =
          Message.frames settings plan stamp) ∧
      Message.frames settings plan stamp =
        events.map (fun event => Frame.ofJson (event.getText? "type") event) ∧
      String.join (Message.fragmentsOf blockNumber events) = text

theorem shownInCompletion {plan : Plan} {number : Nat} {call : ToolCall}
    (h : plan.calls[number]? = some call) (settings : StreamSettings) (stamp : Stamp) :
    ShownInCompletion plan settings stamp number call.name call.arguments where
  document := by
    refine ⟨_, call, Completion.ofDocument?_document plan stamp, ?_, rfl, rfl⟩
    rw [← toolCalls_render] at h
    exact h
  written := Completion.written_acts
  stream := by
    obtain ⟨first, rest, hparts, hname, harguments, hrest, hjoin⟩ :=
      Completion.partsOf_call h settings stamp
    exact ⟨_, first, rest, Completion.frames_eq settings plan stamp, hparts, hname, harguments,
      hrest, hjoin⟩

theorem shownInMessage {plan : Plan} {number : Nat} {call : ToolCall}
    (h : plan.calls[number]? = some call) (settings : StreamSettings) (stamp : Stamp) :
    ShownInMessage plan settings stamp number call.name call.arguments
      (Message.toolInput call.arguments) := by
  obtain ⟨blockNumber, hblock, huse⟩ := Message.exists_block h
  have hsame := sameCall_toolUseBlock call
  unfold ShownInMessage
  exact ⟨_, _, blockNumber, _, Message.ofDocument?_document plan stamp, huse, hsame.name,
    hsame.input, Message.written_acts, Message.frames_eq settings plan stamp,
    Message.join_fragmentsOf hblock settings⟩

/-- **Arguments survive from a script to the wire.**  Every call with a name that an instruction
asks for is shown under its number by both protocols, in documents and in streams, however long the
fragments are.  All three texts of its arguments are the compact form of the value in the script,
and the input of a message is that value, if it has no floating-point number and is not nested too
deep; or they are a text of the script as it stands, and the input is what that text denotes. -/
theorem arguments_survive {scope : String} {index : Nat} {instruction : Json} {plan : Plan}
    (h : Instruction.plan? scope index instruction = some plan) (number : Nat) {name : String}
    {args : Option Json}
    (hcall : (Instruction.scriptedCalls instruction)[number]? = some (name, args))
    (echoed : Echo → String) (settings : StreamSettings) (stamp : Stamp) :
    ∃ text input, Survives args text input ∧
      ShownInCompletion (plan.resolve echoed) settings stamp number name text ∧
      ShownInMessage (plan.resolve echoed) settings stamp number name text input := by
  have hsaid := congrArg (·[number]?) (Instruction.said_plan h)
  simp only [List.getElem?_map, hcall, Option.map_some] at hsaid
  obtain ⟨call, hget, hsay⟩ := Option.map_eq_some_iff.1 hsaid
  obtain ⟨rfl, htext⟩ := Prod.mk.inj hsay
  rw [← calls_resolve echoed] at hget
  have hsurvives := survives_argumentText args
  rw [← htext] at hsurvives
  exact ⟨_, _, hsurvives, shownInCompletion hget settings stamp,
    shownInMessage hget settings stamp⟩

/-- Nested arguments. -/
def paths : Json :=
  .object [("paths", .arr [.str "é\n", .nat 7])]

/-- An instruction with a call whose arguments are nested, and one whose arguments are empty text. -/
def commands : Json :=
  .obj [("messages", .arr [.obj [("tool_call", .arr
    [.obj [("args", paths), ("name", .str "list")],
      .obj [("args", .str ""), ("name", .str "pause")]])]])]

theorem arguments_survive_commands :
    ∃ plan input, Instruction.plan? "0" 0 commands = some plan ∧
      ShownInCompletion (plan.resolve Echo.placeholder) {} default 0 "list" paths.compact ∧
      ShownInMessage (plan.resolve Echo.placeholder) {} default 0 "list" paths.compact paths ∧
      ShownInCompletion (plan.resolve Echo.placeholder) {} default 1 "pause" "" ∧
      ShownInMessage (plan.resolve Echo.placeholder) {} default 1 "pause" "" input := by
  have hplan : (Instruction.plan? "0" 0 commands).isSome = true := by decide +kernel
  obtain ⟨plan, hplan⟩ := Option.isSome_iff_exists.1 hplan
  obtain ⟨_, _, hlist, hcompletion, hmessage⟩ :=
    arguments_survive hplan 0 rfl Echo.placeholder {} default
  obtain ⟨_, input, hpause, hempty, hinput⟩ :=
    arguments_survive hplan 1 rfl Echo.placeholder {} default
  have hother : ∀ content, some paths ≠ some (.str content) := nofun
  have hseven : Json.Exact 125 (.nat 7) := .num (by decide)
  have hitems : Json.Exact 126 (.arr [.str "é\n", .nat 7]) :=
    .arr (by simp [Json.Exact.str, hseven])
  have hexact : Json.Exact Json.maxDepth paths := .object (by simp [hitems])
  obtain rfl := hlist.written hother
  obtain rfl := hlist.kept hother hexact
  obtain rfl := hpause.literal "" rfl
  exact ⟨plan, input, hplan, hcompletion, hmessage, hempty, hinput⟩

end ScriptedChat
