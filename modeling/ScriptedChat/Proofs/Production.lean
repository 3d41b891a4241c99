import ScriptedChat.Proofs.EventStream.Production
import ScriptedChat.Proofs.ToolArguments

/-!
# Where a stream breaks off

A stream without a size of fragments ends at the first name of a tool, and a
stream without the sum of all tokens ends before the usage.

What is proved here:

* `Completion.written_acts_of_usage` — a stream that ends before the usage;
* `Completion.written_acts_of_call`, `Message.written_acts_of_use` — streams that
  end at a name.
-/

namespace ScriptedChat

open EventStream

/-! ## Chunks -/

namespace Completion

variable {settings : StreamSettings} {plan : Plan} {stamp : Stamp}

/-- **A stream without the sum of all tokens ends before the usage**: the usage and the mark that
ends a stream are missing. -/
theorem written_acts_of_usage (hroom : settings.argumentChunk? ≠ none)
    (hinclude : stamp.includeUsage = true) (htotal : stamp.usage.totalTokens? = none) :
    frames settings plan stamp =
      written (acts settings plan stamp) ++ [Chunk.usage.frame stamp, Frame.done] := by
  have hchunks : chunks settings plan stamp = answerChunks settings plan ++ [.usage] := by
    rw [chunks_eq, if_pos hinclude]
  have husage (rest : List Act) : written (Chunk.usage.acts settings stamp ++ rest) = [] := by
    rw [Chunk.acts, htotal]
    rfl
  have hwritten : written (acts settings plan stamp) =
      (answerChunks settings plan).map (Chunk.frame stamp) := by
    rw [acts, hchunks, List.flatMap_append, List.append_assoc,
      written_flatMap (written_answerChunk hroom), List.flatMap_singleton, husage, List.append_nil]
  rw [hwritten, frames, hchunks, List.map_append, List.append_assoc]
  rfl

/-- Before the first call of segments there is speech only. -/
theorem segmentDeltas_of_call {segments : List Segment} {call : ToolCall} {calls : List ToolCall}
    (h : segments.filterMap Segment.call? = call :: calls) (settings : StreamSettings)
    (index : Nat) :
    ∃ front back, segmentDeltas settings index segments =
        front ++ .toolCall index call.id call.name :: back ∧
      ∀ delta ∈ front, delta.Speaks := by
  induction segments with
  | nil => cases h
  | cons segment segments ih =>
    cases segment with
    | content text references =>
      obtain ⟨front, back, hdeltas, hspeaks⟩ := ih h
      refine ⟨contentDeltas settings text references ++ front, back, ?_, ?_⟩
      · rw [segmentDeltas, hdeltas, List.append_assoc]
      · intro delta hmem
        rcases List.mem_append.1 hmem with hcontent | hfront
        · exact speaks_contentDeltas settings text references delta hcontent
        · exact hspeaks delta hfront
    | toolCall first =>
      obtain ⟨rfl, -⟩ := List.cons.inj h
      exact ⟨[], _, rfl, fun _ hmem => absurd hmem List.not_mem_nil⟩

/-- What is written up to a name after which the size of fragments is missing. -/
theorem written_acts_of_speech {speech back : List Delta} {call : ToolCall}
    (hroom : settings.argumentChunk? = none)
    (hdeltas : deltas settings plan = speech ++ .toolCall 0 call.id call.name :: back)
    (hspeech : ∀ delta ∈ speech, delta.Speaks) :
    ∃ chunks : List Json, written (acts settings plan stamp) = chunks.map (Frame.ofJson none) ∧
      chunks.flatMap callParts = [firstPart 0 call] := by
  have hfront : ∀ chunk ∈ speech.map Chunk.delta, ∀ rest,
      written (chunk.acts settings stamp ++ rest) = chunk.frame stamp :: written rest := by
    intro chunk hmem
    obtain ⟨delta, hdelta, rfl⟩ := List.mem_map.1 hmem
    refine written_chunk (fun hnames => ?_) nofun
    cases delta with
    | toolCall index id name => exact (hspeech _ hdelta).elim
    | _ => exact hnames.elim
  have hname (rest : List Act) :
      written ((Chunk.delta (.toolCall 0 call.id call.name)).acts settings stamp ++ rest) =
        [(Chunk.delta (.toolCall 0 call.id call.name)).frame stamp] := by
    rw [Chunk.acts, hroom]
    rfl
  refine ⟨(speech.map Chunk.delta ++ [Chunk.delta (.toolCall 0 call.id call.name)]).map
    (Chunk.toJson stamp), ?_, ?_⟩
  · rw [acts, chunks, hdeltas, List.map_append, List.map_cons, List.append_assoc, List.cons_append,
      written_flatMap_broken hfront hname, List.map_map]
    rfl
  · have hparts := parts_eq_nil hspeech
    rw [List.flatMap_map, List.flatMap_append, List.flatMap_map]
    simp only [callParts_delta, hparts, List.nil_append, List.flatMap_singleton, parts_toolCall]

/-- **A stream without a size of fragments ends at the first name**: it has the name of the first
call, nothing of its arguments, no other call and no end. -/
theorem written_acts_of_call {call : ToolCall} (hroom : settings.argumentChunk? = none)
    (h : plan.calls.head? = some call) :
    ∃ chunks : List Json, written (acts settings plan stamp) = chunks.map (Frame.ofJson none) ∧
      chunks.flatMap callParts = [firstPart 0 call] := by
  obtain ⟨calls, hcalls⟩ := List.head?_eq_some_iff.1 h
  rw [Plan.calls, ← calls_segments 0 plan.steps] at hcalls
  obtain ⟨front, back, hsegments, hspeaks⟩ := segmentDeltas_of_call hcalls settings 0
  have hdeltas : deltas settings plan =
      (.role :: (reasoningDeltas settings (render plan).reasoning ++ front)) ++
        .toolCall 0 call.id call.name :: back := by
    rw [deltas, render, hsegments, List.cons_append, List.append_assoc]
  have hspeech : ∀ delta ∈ .role :: (reasoningDeltas settings (render plan).reasoning ++ front),
      delta.Speaks := by
    intro delta hmem
    rcases List.mem_cons.1 hmem with rfl | hmem
    · trivial
    · rcases List.mem_append.1 hmem with hreasoning | hfront
      · exact speaks_reasoningDeltas settings _ delta hreasoning
      · exact hspeaks delta hfront
  exact written_acts_of_speech hroom hdeltas hspeech

end Completion

/-! ## Events -/

namespace Message

variable {settings : StreamSettings} {plan : Plan} {stamp : Stamp}

/-- The event has no arguments of a tool, and is not the last one of a stream. -/
def Event.Quiet : Event → Prop
  | .blockDelta _ (.inputJson _) => False
  | .messageStop => False
  | _ => True

theorem Event.Quiet.arguments {event : Event} (h : event.Quiet) :
    deltaText? "partial_json" (event.payload plan stamp) = none := by
  cases event with
  | blockDelta index delta =>
    rw [deltaText?_blockDelta]
    cases delta with
    | inputJson fragment => exact h.elim
    | _ => simp [Delta.toJson, Json.getText?]
  | messageDelta => simp [deltaText?, Event.payload, Event.fields, Json.getText?]
  | _ => simp [deltaText?, Event.payload, Event.fields]

theorem Event.Quiet.name_ne {event : Event} (h : event.Quiet) : event.name ≠ "message_stop" := by
  cases event with
  | messageStop => exact h.elim
  | _ => simp [Event.name]

/-- A block that is no use of a tool is filled without arguments. -/
theorem quiet_blockEvents {block : Block} (h : block.arguments? = none) (settings : StreamSettings)
    (index : Nat) : ∀ event ∈ blockEvents settings index block, event.Quiet ∧ ¬ event.Uses := by
  have hdeltas : ∀ fragment, .inputJson fragment ∉ block.deltas settings := by
    cases block with
    | toolUse id name arguments => cases h
    | serverToolUse use => cases h
    | _ => simp [Block.deltas]
  intro event hmem
  rcases List.mem_cons.1 hmem with rfl | hmem
  · exact ⟨trivial, fun huses => huses h⟩
  · rcases List.mem_append.1 hmem with hdelta | hstop
    · obtain ⟨delta, hfills, rfl⟩ := List.mem_map.1 hdelta
      refine ⟨?_, id⟩
      cases delta with
      | inputJson fragment => exact absurd hfills (hdeltas fragment)
      | _ => trivial
    · rw [List.mem_singleton.1 hstop]
      exact ⟨trivial, id⟩

/-- The events before the first use of a tool, and the one that opens it. -/
theorem events_of_use {block : Block} (hmem : block ∈ blocks plan) (huse : block.arguments? ≠ none)
    (settings : StreamSettings) :
    ∃ front opening back, events settings plan = front ++ opening :: back ∧ opening.Uses ∧
      opening.Quiet ∧ ∀ event ∈ front, event.Quiet ∧ ¬ event.Uses := by
  have hfound : ((blocks plan).find? fun block => block.arguments?.isSome).isSome :=
    List.find?_isSome.2 ⟨block, hmem, Option.isSome_iff_ne_none.2 huse⟩
  obtain ⟨first, hfirst⟩ := Option.isSome_iff_exists.1 hfound
  obtain ⟨hfirst, before, after, hblocks, hbefore⟩ := List.find?_eq_some_iff_append.1 hfirst
  obtain ⟨back, hback⟩ : ∃ back, events settings plan =
      (.messageStart :: before.zipIdx.flatMap fun entry => blockEvents settings entry.2 entry.1) ++
        .blockStart before.length first :: back := by
    rw [events, hblocks, List.zipIdx_append, List.zipIdx_cons, List.flatMap_append,
      List.flatMap_cons, Nat.zero_add, List.append_assoc]
    exact ⟨_, rfl⟩
  refine ⟨_, _, back, hback, Option.isSome_iff_ne_none.1 hfirst, trivial, ?_⟩
  intro event hmem
  rcases List.mem_cons.1 hmem with rfl | hmem
  · exact ⟨trivial, id⟩
  · obtain ⟨⟨block, index⟩, hblock, hevent⟩ := List.mem_flatMap.1 hmem
    have hnone : block.arguments? = none := by
      simpa using hbefore block (List.fst_mem_of_mem_zipIdx hblock)
    exact quiet_blockEvents hnone settings index event hevent

/-- **A stream without a size of fragments ends where the first tool is used**: it has nothing of
its arguments and no end. -/
theorem written_acts_of_use {block : Block} (hroom : settings.argumentChunk? = none)
    (hmem : block ∈ blocks plan) (huse : block.arguments? ≠ none) :
    ∃ events : List Json,
      written (acts settings plan stamp) =
        events.map (fun event => Frame.ofJson (event.getText? "type") event) ∧
      (∀ number, fragmentsOf number events = []) ∧
      ∀ event ∈ events, event.getText? "type" ≠ some "message_stop" := by
  obtain ⟨front, opening, back, hevents, huses, hopening, hfront⟩ :=
    events_of_use hmem huse settings
  have hquiet : ∀ event ∈ front ++ [opening], event.Quiet := by
    intro event hmem
    rcases List.mem_append.1 hmem with hmem | hmem
    · exact (hfront event hmem).1
    · exact List.mem_singleton.1 hmem ▸ hopening
  have hgoes : ∀ event ∈ front, ∀ rest,
      written (event.acts settings plan stamp ++ rest) = event.frame plan stamp :: written rest :=
    fun event hmem => written_event fun huses => absurd huses (hfront event hmem).2
  have hends (rest : List Act) :
      written (opening.acts settings plan stamp ++ rest) = [opening.frame plan stamp] := by
    cases opening with
    | blockStart index block =>
      rw [Event.acts, if_pos (Option.isSome_iff_ne_none.2 huses), hroom]
      rfl
    | _ => exact huses.elim
  refine ⟨(front ++ [opening]).map (Event.payload plan stamp), ?_, fun number => ?_, ?_⟩
  · rw [acts, hevents, ← List.append_nil (List.flatMap _ _), written_flatMap_broken hgoes hends,
      List.map_map]
    refine List.map_congr_left fun event _ => ?_
    rw [Function.comp_apply, type_payload]
    rfl
  · refine List.filterMap_eq_nil_iff.2 fun payload hmem => ?_
    obtain ⟨event, hevent, rfl⟩ := List.mem_map.1 (List.mem_of_mem_filter hmem)
    exact (hquiet event hevent).arguments
  · intro payload hmem
    obtain ⟨event, hevent, rfl⟩ := List.mem_map.1 hmem
    rw [type_payload]
    exact fun hname => (hquiet event hevent).name_ne (Option.some.inj hname)

end Message

end ScriptedChat
