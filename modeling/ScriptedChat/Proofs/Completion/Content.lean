import Mathlib.Data.List.Basic
import ScriptedChat.Completion.Rendering

/-!
# The content of a chat completion

The texts of the steps stand in the content one after the other, with one
separator between two of them.  Segments are made with a counter of the
characters written so far, and that counter is the length of the content before
them.

* `textOf` — the content that segments make up;
* `segments_append` — steps after other steps go on where those end;
* `shownTexts` — the texts of steps that are not empty;
* `textOf_segments`, `content_render` — the content, told by the texts alone;
* `leading`, `textOf_gapAfter` — what stands before the text of a later step.
-/

namespace ScriptedChat.Completion

/-! ## Segments -/

/-- The content that segments make up. -/
def textOf (segments : List Segment) : String :=
  String.join (segments.map Segment.text)

theorem textOf_cons (segment : Segment) (segments : List Segment) :
    textOf (segment :: segments) = segment.text ++ textOf segments := by
  rw [textOf, List.map_cons, String.join_cons, textOf]

theorem textOf_calls (calls : List ToolCall) (segments : List Segment) :
    textOf (calls.map .toolCall ++ segments) = textOf segments := by
  induction calls with
  | nil => rfl
  | cons call calls ih =>
    rw [List.map_cons, List.cons_append, textOf_cons, ih, Segment.text, String.empty_append]

theorem references_calls (calls : List ToolCall) :
    (calls.map Segment.toolCall).flatMap Segment.references = [] := by
  induction calls with
  | nil => rfl
  | cons call calls ih =>
    rw [List.map_cons, List.flatMap_cons, ih]
    rfl

theorem textOf_append (segments more : List Segment) :
    textOf (segments ++ more) = textOf segments ++ textOf more := by
  simp [textOf]

/-- A step calls tools or has a text. -/
theorem calls_or_content (step : Step) :
    (∃ calls, step = .toolCalls calls) ∨
      ∃ body citations, contentOf? step = some (body, citations) := by
  cases step with
  | toolCalls calls => exact .inl ⟨calls, rfl⟩
  | serverToolResult result =>
    right
    cases houtcome : result.outcome <;> simp [contentOf?, houtcome]
  | _ => exact .inr ⟨_, _, rfl⟩

theorem segments_calls (written : Nat) (calls : List ToolCall) (steps : List Step) :
    segments written (.toolCalls calls :: steps) = calls.map .toolCall ++ segments written steps := by
  rw [segments]

theorem segments_empty (written : Nat) {step : Step} {citations : List Citation}
    (h : contentOf? step = some ("", citations)) (steps : List Step) :
    segments written (step :: steps) = segments written steps := by
  cases step with
  | toolCalls calls => exact absurd h nofun
  | _ => simp [segments, h]

theorem segments_text (written : Nat) {step : Step} {body : String} {citations : List Citation}
    (h : contentOf? step = some (body, citations)) (hbody : body ≠ "") (steps : List Step) :
    segments written (step :: steps) =
      contentSegment written body citations
        :: segments (written + (gapAfter written).length + body.length) steps := by
  cases step with
  | toolCalls calls => exact absurd h nofun
  | _ => simp [segments, h, hbody]

theorem text_contentSegment (written : Nat) (body : String) (citations : List Citation) :
    (contentSegment written body citations).text = gapAfter written ++ body := rfl

/-- **The counter is the length of the content so far.**  Steps after other steps are shown as if
they stood alone, with the counter that the others leave. -/
theorem segments_append (written : Nat) (before after : List Step) :
    segments written (before ++ after) =
      segments written before ++
        segments (written + (textOf (segments written before)).length) after := by
  induction before generalizing written with
  | nil => simp [segments, textOf]
  | cons step before ih =>
    rw [List.cons_append]
    rcases calls_or_content step with ⟨calls, rfl⟩ | ⟨body, citations, hcontent⟩
    · rw [segments_calls, segments_calls, textOf_calls, ih, List.append_assoc]
    · by_cases hbody : body = ""
      · subst hbody
        rw [segments_empty written hcontent, segments_empty written hcontent, ih]
      · rw [segments_text written hcontent hbody, segments_text written hcontent hbody, ih,
          List.cons_append, textOf_cons, text_contentSegment, String.length_append,
          String.length_append]
        simp only [Nat.add_assoc]

/-! ## Texts -/

theorem length_pos {text : String} (h : text ≠ "") : 0 < text.length := by
  exact Nat.pos_of_ne_zero (mt String.length_eq_zero_iff.1 h)

/-- The texts of steps that are not empty, in the order of the steps. -/
def shownTexts (steps : List Step) : List String :=
  (steps.filterMap fun step => (contentOf? step).map Prod.fst).filter (· ≠ "")

theorem shownTexts_calls (calls : List ToolCall) (steps : List Step) :
    shownTexts (.toolCalls calls :: steps) = shownTexts steps := rfl

theorem shownTexts_empty {step : Step} {citations : List Citation}
    (h : contentOf? step = some ("", citations)) (steps : List Step) :
    shownTexts (step :: steps) = shownTexts steps := by
  simp [shownTexts, h]

theorem shownTexts_text {step : Step} {body : String} {citations : List Citation}
    (h : contentOf? step = some (body, citations)) (hbody : body ≠ "") (steps : List Step) :
    shownTexts (step :: steps) = body :: shownTexts steps := by
  simp [shownTexts, h, hbody]

theorem ne_empty_of_mem_shownTexts {steps : List Step} {text : String}
    (h : text ∈ shownTexts steps) : text ≠ "" := by
  simpa using (List.mem_filter.1 h).2

/-- Texts with a separator between two of them; another one stands before the first if something is
written already. -/
def joined (written : Nat) : List String → String
  | [] => ""
  | text :: texts => gapAfter written ++ text ++ String.join (texts.map (separator ++ ·))

theorem gapAfter_pos {written : Nat} (h : 0 < written) : gapAfter written = separator :=
  if_neg (Nat.ne_of_gt h)

theorem joined_pos {written : Nat} (h : 0 < written) (texts : List String) :
    joined written texts = String.join (texts.map (separator ++ ·)) := by
  cases texts with
  | nil => rfl
  | cons text texts => rw [joined, gapAfter_pos h, List.map_cons, String.join_cons]

theorem intercalate_cons (separator text : String) (texts : List String) :
    separator.intercalate (text :: texts) = text ++ String.join (texts.map (separator ++ ·)) := by
  induction texts generalizing text with
  | nil => simp
  | cons next texts ih =>
    rw [String.intercalate_cons_cons, ih, List.map_cons, String.join_cons]
    simp only [String.append_assoc]

theorem joined_zero (texts : List String) : joined 0 texts = separator.intercalate texts := by
  cases texts with
  | nil => simp [joined]
  | cons text texts => simp [joined, gapAfter, intercalate_cons]

/-- **The texts of the steps make up the content.** -/
theorem textOf_segments (written : Nat) (steps : List Step) :
    textOf (segments written steps) = joined written (shownTexts steps) := by
  induction steps generalizing written with
  | nil => rfl
  | cons step steps ih =>
    rcases calls_or_content step with ⟨calls, rfl⟩ | ⟨body, citations, hcontent⟩
    · rw [segments_calls, textOf_calls, ih, shownTexts_calls]
    · by_cases hbody : body = ""
      · subst hbody
        rw [segments_empty written hcontent, ih, shownTexts_empty hcontent]
      · have hpos : 0 < written + (gapAfter written).length + body.length := by
          have hlen := length_pos hbody
          omega
        rw [segments_text written hcontent hbody, textOf_cons, text_contentSegment, ih,
          shownTexts_text hcontent hbody, joined_pos hpos, joined]

theorem content_render (plan : Plan) :
    (render plan).content = separator.intercalate (shownTexts plan.steps) := by
  rw [← joined_zero, ← textOf_segments]
  rfl

/-! ## Before a text -/

/-- What stands before the text of a step: the texts of the steps before it, each with the separator
after it. -/
def leading (before : List Step) : String :=
  String.join ((shownTexts before).map (· ++ separator))

/-- Separators before texts are separators after them, but for one. -/
theorem join_separators (separator : String) (texts : List String) :
    String.join (texts.map (separator ++ ·)) ++ separator =
      separator ++ String.join (texts.map (· ++ separator)) := by
  induction texts with
  | nil => simp
  | cons text texts ih =>
    rw [List.map_cons, String.join_cons, String.append_assoc, ih, List.map_cons, String.join_cons]
    simp only [String.append_assoc]

/-- **The content so far and the gap after it.** -/
theorem textOf_gapAfter (before : List Step) :
    textOf (segments 0 before) ++ gapAfter (textOf (segments 0 before)).length = leading before := by
  rw [textOf_segments, joined_zero, leading]
  cases htexts : shownTexts before with
  | nil => simp [gapAfter]
  | cons text texts =>
    have htext : text ≠ "" := ne_empty_of_mem_shownTexts (htexts ▸ List.mem_cons_self)
    have hpos : 0 < (separator.intercalate (text :: texts)).length := by
      have hlen := length_pos htext
      rw [intercalate_cons, String.length_append]
      omega
    rw [gapAfter_pos hpos, intercalate_cons, String.append_assoc, join_separators, List.map_cons,
      String.join_cons, String.append_assoc]

end ScriptedChat.Completion
