import ScriptedChat.Proofs.Completion.Agreement
import ScriptedChat.Proofs.Completion.Content
import ScriptedChat.Proofs.EventStream.Production
import ScriptedChat.Proofs.Json.RoundTrip
import ScriptedChat.Proofs.Text.Search

/-!
# A stream and its document agree

The chunks of a stream travel as the texts of frames.  Reading such a text gives
the chunk back, because a chunk has no floating-point number in it, is nested a
few levels deep, and counts nothing but characters and calls.

What is proved here:

* `references_le` — no reference points beyond the content;
* `inRange_deltas`, `exact_chunk` — every number of a stream fits 64 bits where
  the content and the calls can be counted with 64 bits;
* `payloads?_stream` — the chunks are read back from the frames;
* `stream_shows_document` — a stream and a document show the same answer.
-/

namespace ScriptedChat.Completion

open Json (Exact Fits)

/-! ## Places of references -/

/-- A cited text stands inside its body. -/
theorem citedSpan_le (body quoted : String) :
    (citedSpan body quoted).1 ≤ body.length ∧ (citedSpan body quoted).2 ≤ body.length := by
  rw [citedSpan]
  split
  · exact ⟨Nat.zero_le _, Nat.le_refl _⟩
  · split
    · rename_i before after hcut
      have hlen := congrArg List.length (Text.cutAt?_eq_some hcut).1
      rw [List.length_append, List.length_append, String.length_toList, String.length_toList] at hlen
      exact ⟨by simp only; omega, by simp only; omega⟩
    · exact ⟨Nat.zero_le _, Nat.le_refl _⟩

/-- **No reference points beyond the content.** -/
theorem references_le (written : Nat) (steps : List Step) :
    ∀ reference ∈ (segments written steps).flatMap Segment.references,
      reference.start ≤ written + (textOf (segments written steps)).length ∧
      reference.stop ≤ written + (textOf (segments written steps)).length := by
  fun_induction segments written steps with
  | case1 written => exact nofun
  | case2 written calls steps ih =>
    intro reference hmem
    rw [List.flatMap_append, references_calls, List.nil_append] at hmem
    rw [textOf_calls]
    exact ih reference hmem
  | case3 written step steps _ _ ih => exact ih
  | case4 written step steps _ citations _ ih => exact ih
  | case5 written step steps _ body citations _ hbody ih =>
    intro reference hmem
    rw [contentSegment, List.flatMap_cons] at hmem
    rw [contentSegment, textOf_cons, Segment.text, String.length_append, String.length_append]
    rcases List.mem_append.1 hmem with hhere | hlater
    · obtain ⟨citation, _, rfl⟩ := List.mem_map.1 hhere
      have hspan := citedSpan_le body citation.citedText
      simp only [referenceTo]
      omega
    · have hle := ih reference hlater
      omega

/-! ## Numbers of a stream -/

/-- The numbers in a delta have 64 bits. -/
def Delta.InRange : Delta → Prop
  | .references items => ∀ item ∈ items, item.start < UInt64.size ∧ item.stop < UInt64.size
  | .toolCall index _ _ => index < UInt64.size
  | .arguments index _ => index < UInt64.size
  | _ => True

theorem inRange_segmentDeltas (settings : StreamSettings) {segments : List Segment} {index : Nat}
    (hreferences : ∀ reference ∈ segments.flatMap Segment.references,
      reference.start < UInt64.size ∧ reference.stop < UInt64.size)
    (hcalls : index + (segments.filterMap Segment.call?).length ≤ UInt64.size) :
    ∀ delta ∈ segmentDeltas settings index segments, delta.InRange := by
  induction segments generalizing index with
  | nil => exact nofun
  | cons segment segments ih =>
    have hlater : ∀ reference ∈ segments.flatMap Segment.references,
        reference.start < UInt64.size ∧ reference.stop < UInt64.size :=
      fun reference hmem => hreferences reference (List.mem_append_right _ hmem)
    intro delta hdelta
    cases segment with
    | content text references =>
      rcases List.mem_append.1 hdelta with hhere | hrest
      · rcases List.mem_append.1 hhere with hfragment | hreference
        · obtain ⟨fragment, _, rfl⟩ := List.mem_map.1 hfragment
          trivial
        · split at hreference
          · exact absurd hreference List.not_mem_nil
          · rw [List.mem_singleton.1 hreference]
            exact fun reference hmem => hreferences reference (List.mem_append_left _ hmem)
      · exact ih hlater hcalls delta hrest
    | toolCall call =>
      change index + ((segments.filterMap Segment.call?).length + 1) ≤ UInt64.size at hcalls
      rcases List.mem_append.1 hdelta with hhere | hrest
      · rcases List.mem_cons.1 hhere with rfl | hfragment
        · show index < UInt64.size
          omega
        · obtain ⟨fragment, _, rfl⟩ := List.mem_map.1 hfragment
          show index < UInt64.size
          omega
      · exact ih hlater (by omega) delta hrest

theorem inRange_deltas (settings : StreamSettings) {plan : Plan}
    (hcontent : (render plan).content.length < UInt64.size)
    (hcalls : (render plan).toolCalls.length ≤ UInt64.size) :
    ∀ delta ∈ deltas settings plan, delta.InRange := by
  have hreferences : ∀ reference ∈ (render plan).segments.flatMap Segment.references,
      reference.start < UInt64.size ∧ reference.stop < UInt64.size := by
    intro reference hmem
    have hle := references_le 0 plan.steps reference hmem
    rw [Nat.zero_add] at hle
    exact ⟨Nat.lt_of_le_of_lt hle.1 hcontent, Nat.lt_of_le_of_lt hle.2 hcontent⟩
  intro delta hdelta
  rcases List.mem_cons.1 hdelta with rfl | hdelta
  · trivial
  · rcases List.mem_append.1 hdelta with hreasoning | hsegments
    · cases hsome : (render plan).reasoning with
      | none =>
        rw [hsome] at hreasoning
        exact absurd hreasoning List.not_mem_nil
      | some text =>
        rw [hsome] at hreasoning
        rcases List.mem_append.1 hreasoning with hfragment | hdetails
        · obtain ⟨fragment, _, rfl⟩ := List.mem_map.1 hfragment
          trivial
        · rw [List.mem_singleton.1 hdetails]
          trivial
    · exact inRange_segmentDeltas settings hreferences
        (by rw [Nat.zero_add]; exact hcalls) delta hsegments

/-! ## Exact values -/

variable {d : Nat}

theorem exact_nat {n : Nat} (h : n < UInt64.size) : Exact d (.nat n) := by
  have hmin : Text.minInt64 = -0x8000000000000000 := rfl
  have hmax : Text.maxUInt64 = 0xFFFFFFFFFFFFFFFF := rfl
  have hsize : UInt64.size = 0x10000000000000000 := rfl
  exact .num ⟨by omega, by omega⟩

theorem exact_word (n : UInt64) : Exact d (.nat n.toNat) := exact_nat n.toNat_lt

theorem Reference.exact {reference : Reference} (hstart : reference.start < UInt64.size)
    (hstop : reference.stop < UInt64.size) : Exact (d + 2) reference.toJson := by
  have hplace : Exact (d + 1) (.object
      [("url", .str reference.url),
       ("title", .str reference.title),
       ("start_index", .nat reference.start),
       ("end_index", .nat reference.stop)]) :=
    .object (by simp [Exact.str, exact_nat hstart, exact_nat hstop])
  exact .object (by simp [Exact.str, hplace])

theorem exact_reasoningDetail (reasoning : String) : Exact (d + 1) (reasoningDetail reasoning) :=
  .object (by simp [Exact.str, exact_nat])

theorem exact_usageJson {usage : UsageSettings} (h : usage.totalTokens < UInt64.size) :
    Exact (d + 1) (usageJson usage) :=
  .object (by simp [exact_word, exact_nat h])

theorem exact_singleton {item : Json} (h : Exact d item) : Exact (d + 1) (.arr [item]) :=
  .arr fun _ hmem => List.mem_singleton.1 hmem ▸ h

theorem Delta.exact {delta : Delta} (h : delta.InRange) : Exact (d + 4) delta.toJson := by
  cases delta with
  | role => exact .object (by simp [Exact.str])
  | reasoning fragment => exact .object (by simp [Exact.str])
  | reasoningDetails whole =>
    exact .object (by simp [exact_singleton (exact_reasoningDetail whole)])
  | content fragment => exact .object (by simp [Exact.str])
  | references items =>
    have hitems : Exact (d + 3) (.arr (items.map Reference.toJson)) := by
      refine .arr fun v hv => ?_
      obtain ⟨item, hmem, rfl⟩ := List.mem_map.1 hv
      exact Reference.exact (h item hmem).1 (h item hmem).2
    exact .object (by simp [hitems])
  | toolCall index id name =>
    have hfunction : Exact (d + 1) (.object [("name", .str name), ("arguments", .str "")]) :=
      .object (by simp [Exact.str])
    have hcall : Exact (d + 2) (.object
        [("index", .nat index),
         ("id", .str id),
         ("type", .str "function"),
         ("function", .object [("name", .str name), ("arguments", .str "")])]) :=
      .object (by simp [Exact.str, exact_nat h, hfunction])
    exact .object (by simp [exact_singleton hcall])
  | arguments index fragment =>
    have hfunction : Exact (d + 1) (.object [("arguments", .str fragment)]) :=
      .object (by simp [Exact.str])
    have hcall : Exact (d + 2) (.object
        [("index", .nat index), ("function", .object [("arguments", .str fragment)])]) :=
      .object (by simp [exact_nat h, hfunction])
    exact .object (by simp [exact_singleton hcall])

theorem exact_choiceJson {delta reason : Json} (hdelta : Exact (d + 4) delta)
    (hreason : Exact (d + 4) reason) : Exact (d + 5) (choiceJson delta reason) :=
  .object (by simp [exact_nat, hdelta, hreason, Exact.null])

theorem exact_chunkJson {stamp : Stamp} (hcreated : Fits stamp.created) {choices : List Json}
    (hchoices : ∀ choice ∈ choices, Exact (d + 5) choice) {more : List (String × Json)}
    (hmore : ∀ field ∈ more, Exact (d + 6) field.2) :
    Exact (d + 7) (chunkJson stamp choices more) := by
  have hitems : Exact (d + 6) (.arr choices) := .arr hchoices
  have hnumber : Exact (d + 6) (.int stamp.created) := .num hcreated
  exact .object (List.forall_mem_append.2
    ⟨by simp [Exact.str, Exact.null, hitems, hnumber], hmore⟩)

/-- **Every chunk of a stream is a value that its text preserves.** -/
theorem exact_chunk {settings : StreamSettings} {plan : Plan} {stamp : Stamp}
    (hcreated : Fits stamp.created) (hcontent : (render plan).content.length < UInt64.size)
    (hcalls : (render plan).toolCalls.length ≤ UInt64.size)
    (htokens : stamp.includeUsage = true → stamp.usage.totalTokens < UInt64.size) :
    ∀ chunk ∈ chunks settings plan stamp, Exact (d + 7) (chunk.toJson stamp) := by
  intro chunk hchunk
  rcases List.mem_append.1 hchunk with hdelta | hlast
  · obtain ⟨delta, hmem, rfl⟩ := List.mem_map.1 hdelta
    have hexact : Exact (d + 4) delta.toJson :=
      Delta.exact (inRange_deltas settings hcontent hcalls delta hmem)
    exact exact_chunkJson hcreated (by simp [exact_choiceJson hexact .null]) nofun
  · rcases List.mem_cons.1 hlast with rfl | husage
    · have hnothing : Exact (d + 4) (.obj []) := .obj .nil nofun
      exact exact_chunkJson hcreated (by simp [exact_choiceJson hnothing (.str _)]) nofun
    · split at husage
      · rename_i hinclude
        rw [List.mem_singleton.1 husage]
        exact exact_chunkJson hcreated (by simp) (by simp [exact_usageJson (htokens hinclude)])
      · exact absurd husage List.not_mem_nil

/-! ## Frames -/

/-- No object has the text that ends a stream. -/
theorem compact_object_ne_done (fields : List (String × Json)) :
    (Json.object fields).compact ≠ "[DONE]" := by
  intro h
  have hchars := congrArg String.toList h
  rw [Json.compact, String.toList_ofList, Json.object] at hchars
  cases hsorted : Json.sortFields fields with
  | nil =>
    rw [hsorted] at hchars
    exact absurd hchars (by decide)
  | cons field rest =>
    rw [hsorted, Json.chars] at hchars
    exact absurd (List.cons.inj hchars).1 (by decide)

/-- No chunk can be taken for the mark that ends a stream. -/
theorem isDone_chunk (stamp : Stamp) (chunk : Chunk) :
    (Frame.ofJson none (chunk.toJson stamp)).isDone = false := by
  have hdone : (chunk.toJson stamp).compact ≠ "[DONE]" := by
    cases chunk with
    | delta addition => exact compact_object_ne_done _
    | finish reason => exact compact_object_ne_done _
    | usage => exact compact_object_ne_done _
  simpa [Frame.ofJson, Frame.isDone] using hdone

theorem frames_eq (settings : StreamSettings) (plan : Plan) (stamp : Stamp) :
    frames settings plan stamp =
      ((chunks settings plan stamp).map (Chunk.toJson stamp)).map (Frame.ofJson none)
        ++ [Frame.done] := by
  rw [frames, List.map_map]
  rfl

theorem payloads?_frames {payloads : List Json}
    (hread : ∀ payload ∈ payloads, Json.readText payload.compact = .ok payload)
    (hdone : ∀ payload ∈ payloads, (Frame.ofJson none payload).isDone = false) :
    payloads? (payloads.map (Frame.ofJson none) ++ [Frame.done]) = some payloads := by
  induction payloads with
  | nil => rfl
  | cons payload payloads ih =>
    have hmore := ih (fun p hp => hread p (List.mem_cons_of_mem _ hp))
      (fun p hp => hdone p (List.mem_cons_of_mem _ hp))
    rw [List.map_cons, List.cons_append, payloads?, hdone payload List.mem_cons_self, hmore]
    simp [Frame.ofJson, hread payload List.mem_cons_self, Except.toOption]

/-- The frames of a stream carry its chunks and nothing else. -/
theorem payloads?_stream {settings : StreamSettings} {plan : Plan} {stamp : Stamp}
    (hcreated : Fits stamp.created) (hcontent : (render plan).content.length < UInt64.size)
    (hcalls : (render plan).toolCalls.length ≤ UInt64.size)
    (htokens : stamp.includeUsage = true → stamp.usage.totalTokens < UInt64.size) :
    payloads? (frames settings plan stamp) =
      some ((chunks settings plan stamp).map (Chunk.toJson stamp)) := by
  rw [frames_eq]
  refine payloads?_frames (fun payload hmem => ?_) (fun payload hmem => ?_)
  · obtain ⟨chunk, hchunk, rfl⟩ := List.mem_map.1 hmem
    have hexact := exact_chunk (d := 120) hcreated hcontent hcalls htokens chunk hchunk
    exact Json.readText_compact hexact
  · obtain ⟨chunk, _, rfl⟩ := List.mem_map.1 hmem
    exact isDone_chunk stamp chunk

/-! ## The whole answer -/

/-- **A stream and a document show the same answer.**  A client that puts the
chunks together and one that reads the document both hold `shown`.  The document
has a null content exactly where calls stand alone, and no list of annotations
where there are none.  The texts of the frames lose nothing of the chunks as long
as a machine word can number the moment, the characters and the calls, and the
tokens if they are told. -/
theorem stream_shows_document (settings : StreamSettings) (plan : Plan) (stamp : Stamp) :
    Answer.ofChunks? ((chunks settings plan stamp).map (Chunk.toJson stamp)) =
        some (shown plan stamp)
      ∧ Answer.ofDocument? (document plan stamp) = some (shown plan stamp)
      ∧ (∃ message, message? (document plan stamp) = some message
          ∧ (message.get? "content" = some .null ↔
              (shown plan stamp).reply.content = "" ∧ (shown plan stamp).reply.calls ≠ [])
          ∧ (message.get? "annotations" = none ↔ (shown plan stamp).reply.annotations = []))
      ∧ frames settings plan stamp =
          (chunks settings plan stamp).map (fun chunk => Frame.ofJson none (chunk.toJson stamp))
            ++ [Frame.done]
      ∧ (settings.argumentChunk? ≠ none →
          (stamp.includeUsage = true → stamp.usage.totalTokens? ≠ none) →
          EventStream.written (acts settings plan stamp) = frames settings plan stamp)
      ∧ (Text.minInt64 ≤ stamp.created → stamp.created ≤ Text.maxInt64 →
          (render plan).content.length < UInt64.size → (render plan).toolCalls.length ≤ UInt64.size →
          (stamp.includeUsage = true → stamp.usage.totalTokens < UInt64.size) →
          Answer.ofFrames? (frames settings plan stamp) = some (shown plan stamp)) := by
  refine ⟨ofChunks?_chunks settings plan stamp, ofDocument?_document plan stamp,
    ⟨messageJson (render plan), message?_document plan stamp, ?_, ?_⟩, rfl, written_acts, ?_⟩
  · rw [get?_content, Option.some_inj, contentJson_eq_null]
    rfl
  · rw [get?_annotations]
    simp [shown]
  · intro hlow hhigh hcontent hcalls htokens
    have hcreated : Fits stamp.created := ⟨hlow, Int.le_trans hhigh (by decide)⟩
    rw [Answer.ofFrames?, payloads?_stream hcreated hcontent hcalls htokens]
    exact ofChunks?_chunks settings plan stamp

end ScriptedChat.Completion
