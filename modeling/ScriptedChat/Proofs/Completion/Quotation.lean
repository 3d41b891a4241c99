import Mathlib.Data.List.Forall2
import ScriptedChat.Proofs.Completion.Agreement
import ScriptedChat.Proofs.Completion.Content
import ScriptedChat.Proofs.Text.Search

/-!
# Citations point at what they quote

A citation is shown as an annotation with a place in the content.  The text at
that place is what the citation quotes, or the whole text of its step where that
does not occur in it.

* `Quotation`, `quotations` — the citations of a plan, each with the text that it
  belongs to and the steps before it;
* `slice`, `place?` — a part of a text, and the place that an annotation names;
* `PointsAt`, `Points` — what the place of an annotation has to be;
* `pointsAt_citedSpan` — the place of one citation;
* `points_segments` — the citations of all steps, one step after the other;
* `annotations_point_at_quotations` — the annotations of an answer.
-/

namespace ScriptedChat.Completion

/-! ## Quotations -/

/-- A citation with the text that it belongs to and the steps before that text. -/
structure Quotation where
  before : List Step
  body : String
  citation : Citation

/-- The citations of a step after other steps.  A text that is empty has none. -/
def stepQuotations (before : List Step) : Step → List Quotation
  | .cited cited =>
    if cited.body.text = "" then []
    else cited.citations.map fun citation => { before, body := cited.body.text, citation }
  | _ => []

/-- The citations of steps after other steps, in the order of the steps. -/
def quotations (before : List Step) : List Step → List Quotation
  | [] => []
  | step :: steps => stepQuotations before step ++ quotations (before ++ [step]) steps

/-- Whether the quoted text occurs in the text that it is quoted from. -/
def Quotation.Occurs (quotation : Quotation) : Prop :=
  quotation.citation.citedText ≠ "" ∧
    quotation.citation.citedText.toList <:+: quotation.body.toList

/-! ## Places -/

/-- The characters of a text from one place up to another. -/
def slice (start stop : Nat) (text : String) : List Char :=
  (text.toList.drop start).take (stop - start)

/-- A field of the source that an annotation names. -/
def source? (name : String) (mark : Json) : Option Json :=
  (mark.get? "url_citation").bind (·.get? name)

/-- The place that an annotation names. -/
def place? (mark : Json) : Option (Nat × Nat) := do
  let start ← (source? "start_index" mark).bind Json.asNat?
  let stop ← (source? "end_index" mark).bind Json.asNat?
  return (start, stop)

/-- A place in the content that is right for a quotation. -/
structure PointsAt (content : String) (quotation : Quotation) (start stop : Nat) : Prop where
  ordered : start ≤ stop
  inside : stop ≤ content.length
  /-- the quoted text, where it occurs first in the text that it is quoted from -/
  quoted : quotation.Occurs →
    slice start stop content = quotation.citation.citedText.toList ∧
    ∃ first rest,
      quotation.body.toList = first ++ (quotation.citation.citedText.toList ++ rest) ∧
      (∀ other more,
        quotation.body.toList = other ++ (quotation.citation.citedText.toList ++ more) →
          first.length ≤ other.length) ∧
      start = (leading quotation.before).length + first.length
  /-- or else the whole text -/
  whole : ¬ quotation.Occurs →
    slice start stop content = quotation.body.toList ∧
      start = (leading quotation.before).length

/-- An annotation of the content that is right for a quotation. -/
structure Points (content : String) (quotation : Quotation) (mark : Json) : Prop where
  kind : mark.getText? "type" = some "url_citation"
  url : source? "url" mark = some (.str quotation.citation.url)
  title : source? "title" mark = some (.str quotation.citation.title)
  place : ∃ start stop, place? mark = some (start, stop) ∧
    PointsAt content quotation start stop

/-! ## One citation -/

/-- A part of a part. -/
theorem slice_append {front quoted back : List Char} {content : String}
    (h : content.toList = front ++ (quoted ++ back)) :
    slice front.length (front.length + quoted.length) content = quoted := by
  rw [slice, h, List.drop_left, Nat.add_sub_cancel_left, List.take_left]

/-- **The place of one citation**, in a content in which its text stands after what leads to it. -/
theorem pointsAt_citedSpan {content : String} {quotation : Quotation} {back : String}
    (h : content = leading quotation.before ++ (quotation.body ++ back)) :
    PointsAt content quotation
      ((leading quotation.before).length
        + (citedSpan quotation.body quotation.citation.citedText).1)
      ((leading quotation.before).length
        + (citedSpan quotation.body quotation.citation.citedText).2) := by
  have hcontent := congrArg String.toList h
  rw [String.toList_append, String.toList_append] at hcontent
  have hlen := congrArg String.length h
  rw [String.length_append, String.length_append] at hlen
  have hwhole := slice_append hcontent
  rw [String.length_toList, String.length_toList] at hwhole
  rw [citedSpan]
  by_cases hempty : quotation.citation.citedText = ""
  · rw [if_pos hempty]
    refine ⟨Nat.le_add_right _ _, by simp only; omega, fun hoccurs => absurd hempty hoccurs.1, ?_⟩
    exact fun _ => ⟨hwhole, rfl⟩
  · rw [if_neg hempty]
    cases hcut : Text.cutAt? quotation.citation.citedText.toList quotation.body.toList with
    | none =>
      have hnot := Text.cutAt?_eq_none.1 hcut
      refine ⟨Nat.le_add_right _ _, by simp only; omega, fun hoccurs => absurd hoccurs.2 hnot, ?_⟩
      exact fun _ => ⟨hwhole, rfl⟩
    | some found =>
      obtain ⟨first, rest⟩ := found
      obtain ⟨hbody, hfirst⟩ := Text.cutAt?_eq_some hcut
      have hbodyLen := congrArg List.length hbody
      rw [List.length_append, List.length_append, String.length_toList, String.length_toList]
        at hbodyLen
      have hplace : content.toList = ((leading quotation.before).toList ++ first) ++
          (quotation.citation.citedText.toList ++ (rest ++ back.toList)) := by
        rw [hcontent, hbody]
        simp only [List.append_assoc]
      have hslice := slice_append hplace
      rw [List.length_append, String.length_toList, String.length_toList, Nat.add_assoc] at hslice
      have hoccurs : quotation.Occurs := ⟨hempty, first, rest, by rw [List.append_assoc, hbody]⟩
      refine ⟨by simp only; omega, by simp only; omega, fun _ => ?_, fun hnot => absurd hoccurs hnot⟩
      exact ⟨hslice, first, rest, hbody, hfirst, rfl⟩

/-- An annotation names what its reference holds. -/
theorem points_toJson {content : String} {quotation : Quotation} {reference : Reference}
    (hurl : reference.url = quotation.citation.url)
    (htitle : reference.title = quotation.citation.title)
    (h : PointsAt content quotation reference.start reference.stop) :
    Points content quotation reference.toJson where
  kind := by simp [Reference.toJson, Json.getText?, Json.asText?]
  url := by simp [source?, Reference.toJson, hurl]
  title := by simp [source?, Reference.toJson, htitle]
  place := ⟨reference.start, reference.stop, by simp [place?, source?, Reference.toJson], h⟩

/-! ## All citations -/

/-- The annotations that steps have when other steps come before them. -/
def annotationsAfter (before steps : List Step) : List Json :=
  ((segments (textOf (segments 0 before)).length steps).flatMap Segment.references).map
    Reference.toJson

theorem annotationsAfter_cons (before : List Step) (step : Step) (steps : List Step) :
    annotationsAfter before (step :: steps) =
      annotationsAfter before [step] ++ annotationsAfter (before ++ [step]) steps := by
  have hstep := segments_append (textOf (segments 0 before)).length [step] steps
  have hbefore := segments_append 0 before [step]
  rw [Nat.zero_add] at hbefore
  rw [List.singleton_append] at hstep
  simp only [annotationsAfter, hstep, hbefore, textOf_append, String.length_append,
    List.flatMap_append, List.map_append]

theorem annotationsAfter_calls (before : List Step) (calls : List ToolCall) :
    annotationsAfter before [.toolCalls calls] = [] := by
  rw [annotationsAfter, segments_calls, List.flatMap_append, references_calls]
  rfl

theorem annotationsAfter_empty (before : List Step) {step : Step} {citations : List Citation}
    (h : contentOf? step = some ("", citations)) : annotationsAfter before [step] = [] := by
  rw [annotationsAfter, segments_empty _ h]
  rfl

/-- The references of a text count from its beginning in the content. -/
theorem annotationsAfter_text (before : List Step) {step : Step} {body : String}
    {citations : List Citation} (h : contentOf? step = some (body, citations)) (hbody : body ≠ "") :
    annotationsAfter before [step] =
      citations.map fun citation =>
        (referenceTo (leading before).length body citation).toJson := by
  have hlen := congrArg String.length (textOf_gapAfter before)
  rw [String.length_append] at hlen
  rw [annotationsAfter, segments_text _ h hbody, contentSegment]
  simp only [hlen]
  simp [segments, Segment.references]

/-- The citations of a step are those of its text. -/
theorem stepQuotations_eq (before : List Step) {step : Step} {body : String}
    {citations : List Citation} (h : contentOf? step = some (body, citations)) :
    stepQuotations before step =
      if body = "" then [] else citations.map fun citation => { before, body, citation } := by
  cases step with
  | toolCalls calls => exact absurd h nofun
  | serverToolResult result =>
    cases houtcome : result.outcome <;> simp [contentOf?, houtcome] at h <;>
      simp [stepQuotations, ← h.2]
  | cited cited =>
    cases h
    rfl
  | _ =>
    cases h
    simp [stepQuotations]

/-- **One step.**  Its annotations are right for its citations. -/
theorem points_step {content back : String} (before : List Step) (step : Step)
    (h : content = textOf (segments 0 (before ++ [step])) ++ back) :
    List.Forall₂ (Points content) (stepQuotations before step) (annotationsAfter before [step]) := by
  rcases calls_or_content step with ⟨calls, rfl⟩ | ⟨body, citations, hcontent⟩
  · rw [annotationsAfter_calls]
    exact .nil
  · rw [stepQuotations_eq before hcontent]
    by_cases hbody : body = ""
    · subst hbody
      rw [if_pos rfl, annotationsAfter_empty before hcontent]
      exact .nil
    · have hplace : content = leading before ++ (body ++ back) := by
        rw [h, segments_append, Nat.zero_add, segments_text _ hcontent hbody, segments, textOf_append,
          textOf_cons, text_contentSegment, ← textOf_gapAfter]
        simp [textOf, String.append_assoc]
      rw [if_neg hbody, annotationsAfter_text before hcontent hbody, List.forall₂_map_left_iff,
        List.forall₂_map_right_iff, List.forall₂_same]
      intro citation _
      exact points_toJson rfl rfl (pointsAt_citedSpan hplace)

/-- **All steps**, one after the other. -/
theorem points_segments {content : String} (before steps : List Step)
    (h : content = textOf (segments 0 (before ++ steps))) :
    List.Forall₂ (Points content) (quotations before steps) (annotationsAfter before steps) := by
  induction steps generalizing before with
  | nil => exact .nil
  | cons step steps ih =>
    rw [List.append_cons] at h
    have hstep := h
    rw [segments_append, textOf_append] at hstep
    rw [quotations, annotationsAfter_cons]
    exact List.rel_append (points_step before step hstep) (ih (before ++ [step]) h)

/-- **Annotations point at what citations quote.**  A document and a stream show the same content and
the same annotations: one for every citation of a text that is not empty, in the order of the steps
and of their citations.  The place that an annotation names lies in the content, after everything
that leads to the text of its step, and holds the quoted text where it occurs first in that text,
or that text as a whole where it does not occur. -/
theorem annotations_point_at_quotations (settings : StreamSettings) (plan : Plan) (stamp : Stamp) :
    ∃ answer,
      Answer.ofDocument? (document plan stamp) = some answer ∧
      Answer.ofChunks? ((chunks settings plan stamp).map (Chunk.toJson stamp)) = some answer ∧
      List.Forall₂ (Points answer.reply.content) (quotations [] plan.steps)
        answer.reply.annotations :=
  ⟨shown plan stamp, ofDocument?_document plan stamp, ofChunks?_chunks settings plan stamp,
    points_segments [] plan.steps rfl⟩

end ScriptedChat.Completion
