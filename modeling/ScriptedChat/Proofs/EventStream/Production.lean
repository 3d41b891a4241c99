import ScriptedChat.Completion.Stream
import ScriptedChat.Message.Stream

/-!
# What the producer of a stream writes

The producer of a stream computes two numbers of 64 bits on its way: the size of
the fragments of arguments, after each name of a tool, and the sum of all tokens,
before the usage.  With both of them the stream is written to its end.  Where one
is missing the stream breaks off, and what has been written is the beginning of
the whole stream.

What is proved here:

* `written_prefix` — what is written is a beginning of what there is to write;
* `written_flatMap`, `written_flatMap_broken` — what is written of items that can
  be gone on from, and of items one of which cannot;
* `Completion.written_acts`, `Message.written_acts` — streams that are complete;
* `Completion.written_acts_prefix`, `Message.written_acts_prefix` — all streams.
-/

namespace ScriptedChat

/-! ## Beginnings -/

namespace EventStream

/-- The frame that is written, if something is. -/
def Act.frame? : Act → Option Frame
  | .write frame => some frame
  | .compute _ => none

/-- **A producer that breaks off leaves out nothing but an end.** -/
theorem written_prefix (acts : List Act) : written acts <+: acts.filterMap Act.frame? := by
  induction acts with
  | nil => exact List.nil_prefix
  | cons act acts ih =>
    cases act with
    | write frame => exact (List.prefix_cons_inj frame).2 ih
    | compute number =>
      cases number with
      | none => exact List.nil_prefix
      | some number => exact ih

end EventStream

/-! ## Items one after the other -/

namespace EventStream

variable {α : Type} {acts : α → List Act} {frame : α → Frame}

theorem filterMap_flatMap (h : ∀ item, (acts item).filterMap Act.frame? = [frame item])
    (items : List α) : (items.flatMap acts).filterMap Act.frame? = items.map frame := by
  simp only [List.filterMap_flatMap, h, List.map_eq_flatMap]

/-- Every item is one frame as long as all of them can be gone on from. -/
theorem written_flatMap {items : List α}
    (h : ∀ item ∈ items, ∀ rest, written (acts item ++ rest) = frame item :: written rest)
    (rest : List Act) :
    written (items.flatMap acts ++ rest) = items.map frame ++ written rest := by
  induction items with
  | nil => rfl
  | cons item items ih =>
    have hmore := ih fun other hmem => h other (List.mem_cons_of_mem _ hmem)
    rw [List.flatMap_cons, List.append_assoc, h item List.mem_cons_self, hmore, List.map_cons,
      List.cons_append]

/-- **A producer ends at the first item that it cannot go on from.** -/
theorem written_flatMap_broken {front back : List α} {item : α} {rest : List Act}
    (hfront : ∀ other ∈ front, ∀ rest, written (acts other ++ rest) = frame other :: written rest)
    (hitem : ∀ rest, written (acts item ++ rest) = [frame item]) :
    written ((front ++ item :: back).flatMap acts ++ rest) = (front ++ [item]).map frame := by
  rw [List.flatMap_append, List.append_assoc, written_flatMap hfront, List.flatMap_cons,
    List.append_assoc, hitem, List.map_append]
  rfl

end EventStream

open EventStream

/-! ## Chunks -/

namespace Completion

variable {settings : StreamSettings} {plan : Plan} {stamp : Stamp}

/-- The chunk begins a tool call. -/
def Chunk.Names : Chunk → Prop
  | .delta (.toolCall _ _ _) => True
  | _ => False

/-- The frame of a chunk. -/
def Chunk.frame (stamp : Stamp) (chunk : Chunk) : Frame :=
  Frame.ofJson none (chunk.toJson stamp)

/-- The producer goes on from a chunk, unless a number is missing that this chunk needs. -/
theorem written_chunk {chunk : Chunk} (hroom : chunk.Names → settings.argumentChunk? ≠ none)
    (htotal : chunk = .usage → stamp.usage.totalTokens? ≠ none) (rest : List Act) :
    written (chunk.acts settings stamp ++ rest) = chunk.frame stamp :: written rest := by
  cases chunk with
  | delta addition =>
    cases addition with
    | toolCall index id name =>
      obtain ⟨room, hroom⟩ := Option.ne_none_iff_exists'.1 (hroom trivial)
      simp only [Chunk.acts, hroom, List.cons_append, List.nil_append, written_write,
        written_compute]
      rfl
    | _ => rfl
  | finish reason => rfl
  | usage =>
    obtain ⟨total, htotal⟩ := Option.ne_none_iff_exists'.1 (htotal rfl)
    simp only [Chunk.acts, htotal, List.cons_append, List.nil_append, written_write,
      written_compute]
    rfl

/-- The chunks of a stream but its usage. -/
def answerChunks (settings : StreamSettings) (plan : Plan) : List Chunk :=
  (deltas settings plan).map .delta ++ [.finish (finishReason plan)]

theorem chunks_eq (settings : StreamSettings) (plan : Plan) (stamp : Stamp) :
    chunks settings plan stamp =
      answerChunks settings plan ++ if stamp.includeUsage then [.usage] else [] := by
  rw [chunks, answerChunks, List.append_assoc]
  rfl

theorem ne_usage_of_mem {chunk : Chunk} (h : chunk ∈ answerChunks settings plan) :
    chunk ≠ .usage := by
  rintro rfl
  simp [answerChunks] at h

theorem written_answerChunk (hroom : settings.argumentChunk? ≠ none) :
    ∀ chunk ∈ answerChunks settings plan, ∀ rest,
      written (chunk.acts settings stamp ++ rest) = chunk.frame stamp :: written rest :=
  fun _ hmem => written_chunk (fun _ => hroom) fun husage => absurd husage (ne_usage_of_mem hmem)

/-- **A stream is written to its end** if the numbers that it needs can be computed. -/
theorem written_acts (hroom : settings.argumentChunk? ≠ none)
    (htotal : stamp.includeUsage = true → stamp.usage.totalTokens? ≠ none) :
    written (acts settings plan stamp) = frames settings plan stamp := by
  have hall : ∀ chunk ∈ chunks settings plan stamp, ∀ rest,
      written (chunk.acts settings stamp ++ rest) = chunk.frame stamp :: written rest := by
    intro chunk hmem
    rw [chunks_eq] at hmem
    rcases List.mem_append.1 hmem with hanswer | husage
    · exact written_answerChunk hroom chunk hanswer
    · split at husage
      · rename_i hinclude
        exact written_chunk (fun _ => hroom) fun _ => htotal hinclude
      · exact absurd husage List.not_mem_nil
  rw [acts, written_flatMap hall]
  rfl

theorem filterMap_acts (settings : StreamSettings) (plan : Plan) (stamp : Stamp) :
    (acts settings plan stamp).filterMap Act.frame? = frames settings plan stamp := by
  have hchunk (chunk : Chunk) :
      (chunk.acts settings stamp).filterMap Act.frame? = [chunk.frame stamp] := by
    cases chunk with
    | delta addition => cases addition <;> rfl
    | _ => rfl
  rw [acts, List.filterMap_append, filterMap_flatMap hchunk]
  rfl

/-- What is written is the beginning of the stream. -/
theorem written_acts_prefix (settings : StreamSettings) (plan : Plan) (stamp : Stamp) :
    written (acts settings plan stamp) <+: frames settings plan stamp :=
  filterMap_acts settings plan stamp ▸ written_prefix _

end Completion

/-! ## Events -/

namespace Message

variable {settings : StreamSettings} {plan : Plan} {stamp : Stamp}

/-- The frame of an event. -/
def Event.frame (plan : Plan) (stamp : Stamp) (event : Event) : Frame :=
  Frame.ofJson (some event.name) (event.payload plan stamp)

/-- The event opens the use of a tool. -/
def Event.Uses : Event → Prop
  | .blockStart _ block => block.arguments? ≠ none
  | _ => False

/-- The producer goes on from an event, unless the size of the fragments is missing after it. -/
theorem written_event {event : Event} (hroom : event.Uses → settings.argumentChunk? ≠ none)
    (rest : List Act) :
    written (event.acts settings plan stamp ++ rest) = event.frame plan stamp :: written rest := by
  cases event with
  | blockStart index block =>
    cases harguments : block.arguments? with
    | none =>
      rw [Event.acts, harguments]
      rfl
    | some arguments =>
      have huses : (Event.blockStart index block).Uses := by
        rw [Event.Uses, harguments]
        exact Option.some_ne_none arguments
      obtain ⟨room, hroom⟩ := Option.ne_none_iff_exists'.1 (hroom huses)
      rw [Event.acts, harguments, hroom]
      rfl
  | _ => rfl

/-- **A stream is written to its end** if the size of the fragments can be computed. -/
theorem written_acts (hroom : settings.argumentChunk? ≠ none) :
    written (acts settings plan stamp) = frames settings plan stamp := by
  have hall : ∀ event ∈ events settings plan, ∀ rest,
      written (event.acts settings plan stamp ++ rest) = event.frame plan stamp :: written rest :=
    fun event _ => written_event fun _ => hroom
  have hwritten := written_flatMap hall []
  rw [List.append_nil] at hwritten
  rw [acts, hwritten]
  exact List.append_nil _

theorem filterMap_acts (settings : StreamSettings) (plan : Plan) (stamp : Stamp) :
    (acts settings plan stamp).filterMap Act.frame? = frames settings plan stamp := by
  have hevent (event : Event) :
      (event.acts settings plan stamp).filterMap Act.frame? = [event.frame plan stamp] := by
    cases event with
    | blockStart index block =>
      rw [Event.acts]
      cases block.arguments? <;> rfl
    | _ => rfl
  exact filterMap_flatMap hevent _

/-- What is written is the beginning of the stream. -/
theorem written_acts_prefix (settings : StreamSettings) (plan : Plan) (stamp : Stamp) :
    written (acts settings plan stamp) <+: frames settings plan stamp :=
  filterMap_acts settings plan stamp ▸ written_prefix _

end Message

end ScriptedChat
