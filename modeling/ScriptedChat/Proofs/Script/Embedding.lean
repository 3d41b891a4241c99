import ScriptedChat.Proofs.Json.RoundTrip
import ScriptedChat.Proofs.Script.Site
import ScriptedChat.Proofs.Text.Blank
import ScriptedChat.Proofs.Text.Search

/-!
# Scripts do not depend on the text around them

A script stands between sentinels in a text, with blanks around it or in a code
block.  What stands before the opening sentinel, after the closing one and around
the script inside does not change its plans.

* `Written`, `Embeds` — the ways a script is written into a text;
* `Sentinel.cutAt?`, `Sentinel.within` — a sentinel is found where it was put, and
  not across the ends of a text;
* `Written.trim_body` — code blocks and blanks are taken off;
* `block?_of_embeds` — the script is what stands between the sentinels;
* `plans_of_embedded` — its plans are those of the document.
-/

namespace ScriptedChat.Script

open Text (Blanks Bare)

/-! ## Texts with a script -/

/-- The ways a script is written between the sentinels: between blanks, or in a code block that
may be closed or not. -/
inductive Written (script : List Char) : List Char → Prop where
  | plain {front back : List Char} (front_blank : Blanks front) (back_blank : Blanks back) :
    Written script (front ++ (script ++ back))
  | fenced {front mark inside after shut back : List Char} (front_blank : Blanks front)
    (mark_eq : mark = jsonFence ∨ mark = fence) (inside_blank : Blanks inside)
    (after_blank : Blanks after) (shut_eq : shut = fence ∨ shut = []) (back_blank : Blanks back) :
    Written script (front ++ (mark ++ (inside ++ (script ++ (after ++ (shut ++ back))))))

/-- A text with a script between sentinels, and no opening sentinel before it. -/
def Embeds (script message : List Char) : Prop :=
  ∃ before body after, ¬ opening <:+: before ∧ Written script body ∧
    message = before ++ (opening ++ (body ++ (closing ++ after)))

/-- A text from an opening brace to a closing one. -/
structure Braced (text : List Char) : Prop where
  head : text.head? = some '\x7b'
  last : text.getLast? = some '\x7d'

theorem Braced.ne_nil {text : List Char} (h : Braced text) : text ≠ [] := by
  rintro rfl
  exact absurd h.head nofun

theorem Braced.bare {text : List Char} (h : Braced text) : Bare text := by
  constructor
  · rw [h.head]
    rintro _ ⟨⟩
    decide
  · rw [h.last]
    rintro _ ⟨⟩
    decide

/-! ## Sentinels -/

/-- A sentinel stands between angle brackets and has no other `<`, so that no two can overlap. -/
def Sentinel (mark : List Char) : Prop :=
  ∃ inner, mark = '<' :: (inner ++ ['>']) ∧ '<' ∉ inner ++ ['>']

theorem sentinel_opening : Sentinel opening :=
  ⟨"mock-llm-instructions".toList, by decide +kernel⟩

theorem sentinel_closing : Sentinel closing :=
  ⟨"/mock-llm-instructions".toList, by decide +kernel⟩

/-- A sentinel is found where it was put, if it does not stand before that. -/
theorem Sentinel.cutAt? {mark front : List Char} (h : Sentinel mark) (hfront : ¬ mark <:+: front)
    (rest : List Char) : Text.cutAt? mark (front ++ (mark ++ rest)) = some (front, rest) := by
  obtain ⟨inner, rfl, hnot⟩ := h
  exact Text.cutAt?_append hnot hfront rest

/-- A sentinel does not begin before a text where no `<` stands, and does not end after it where
no `>` stands. -/
theorem Sentinel.within {mark front text back : List Char} (h : Sentinel mark) (hfront : '<' ∉ front)
    (hback : '>' ∉ back) (hoccurs : mark <:+: front ++ (text ++ back)) : mark <:+: text := by
  obtain ⟨inner, rfl, -⟩ := h
  have hright := Text.infix_of_append_left hfront hoccurs
  rw [← List.cons_append] at hright ⊢
  exact Text.infix_of_append_right hback hright

theorem Blanks.not_mem {text : List Char} (h : Blanks text) {c : Char} (hc : Text.isBlank c = false) :
    c ∉ text := by
  intro hmem
  rw [h c hmem] at hc
  exact absurd hc nofun

theorem Written.closing_within {script body : List Char} (h : Written script body)
    (hclosing : closing <:+: body) : closing <:+: script := by
  cases h with
  | plain hfront hback =>
    exact sentinel_closing.within (Blanks.not_mem hfront (by decide))
      (Blanks.not_mem hback (by decide)) hclosing
  | @fenced front mark inside after shut back hfront hmark hinside hafter hshut hback =>
    have hleft : '<' ∉ front ++ (mark ++ inside) := by
      rw [List.mem_append, List.mem_append]
      rintro (hmem | hmem | hmem)
      · exact Blanks.not_mem hfront (by decide) hmem
      · rcases hmark with rfl | rfl <;> exact absurd hmem (by decide)
      · exact Blanks.not_mem hinside (by decide) hmem
    have hright : '>' ∉ after ++ (shut ++ back) := by
      rw [List.mem_append, List.mem_append]
      rintro (hmem | hmem | hmem)
      · exact Blanks.not_mem hafter (by decide) hmem
      · rcases hshut with rfl | rfl <;> exact absurd hmem (by decide)
      · exact Blanks.not_mem hback (by decide) hmem
    refine sentinel_closing.within hleft hright ?_
    simpa only [List.append_assoc] using hclosing

/-! ## Code blocks -/

theorem dropFrontFences_of_head {text : List Char} (h : text.head? ≠ some '\x60') :
    dropFrontFences text = text := by
  unfold dropFrontFences
  split
  · exact absurd rfl h
  · rfl

/-- One fence at the end is taken off, if there is one. -/
theorem dropFences_append {text shut : List Char} (h : text.getLast? ≠ some '\x60')
    (hshut : shut = fence ∨ shut = []) : dropFences (text ++ shut) = text := by
  have hreverse : dropFrontFences text.reverse = text.reverse :=
    dropFrontFences_of_head (by rwa [List.head?_reverse])
  rcases hshut with rfl | rfl
  · rw [dropFences, List.reverse_append]
    show (dropFrontFences text.reverse).reverse = text
    rw [hreverse, List.reverse_reverse]
  · rw [List.append_nil, dropFences, hreverse, List.reverse_reverse]

theorem unfence_of_head {text : List Char} (h : text.head? ≠ some '\x60') : unfence text = text := by
  have hnot (mark : List Char) : Text.afterFront? ('\x60' :: mark) text = none := by
    rw [Text.afterFront?_eq_none]
    rintro ⟨rest, rfl⟩
    exact h rfl
  have hjson : Text.afterFront? jsonFence text = none := hnot _
  have hplain : Text.afterFront? fence text = none := hnot _
  rw [unfence, hjson, hplain]
  rfl

theorem unfence_mark {mark inner : List Char} (hmark : mark = jsonFence ∨ mark = fence)
    (hinner : inner.head? ≠ some 'j') :
    unfence (mark ++ inner) = dropFences (Text.trimEnd inner) := by
  unfold unfence
  rcases hmark with rfl | rfl
  · rw [Text.afterFront?_append]
    rfl
  · have hplain : Text.afterFront? jsonFence (fence ++ inner) = none := by
      rw [Text.afterFront?_eq_none, jsonFence, List.prefix_append_right_inj]
      rintro ⟨rest, rfl⟩
      exact hinner rfl
    rw [hplain, Text.afterFront?_append]
    rfl

theorem getLast?_append {text other : List Char} (h : other ≠ []) :
    (text ++ other).getLast? = other.getLast? :=
  List.getLast?_append_of_ne_nil text h

theorem bare_mark_append {mark inner : List Char} (hmark : mark = jsonFence ∨ mark = fence)
    (hne : inner ≠ []) (hlast : ∀ c ∈ inner.getLast?, Text.isBlank c = false) :
    Bare (mark ++ inner) := by
  refine ⟨?_, by rwa [getLast?_append hne]⟩
  rcases hmark with rfl | rfl
  · rintro _ ⟨⟩
    decide
  · rintro _ ⟨⟩
    decide

/-- Neither the blanks in front of a script nor the script go on the mark of a code block. -/
theorem head_inside_ne {inside script rest : List Char} (hinside : Blanks inside)
    (hscript : Braced script) : (inside ++ (script ++ rest)).head? ≠ some 'j' := by
  cases inside with
  | nil =>
    rw [List.nil_append, List.head?_append_of_ne_nil _ hscript.ne_nil, hscript.head]
    decide
  | cons c inside =>
    have hblank := hinside c List.mem_cons_self
    rintro ⟨⟩
    exact absurd hblank (by decide)

/-- Neither the blanks after a script nor the script end with a fence. -/
theorem last_after_ne {front script after : List Char} (hafter : Blanks after)
    (hscript : Braced script) : (front ++ (script ++ after)).getLast? ≠ some '\x60' := by
  have hne : script ++ after ≠ [] := List.append_ne_nil_of_left_ne_nil hscript.ne_nil _
  rw [getLast?_append hne]
  by_cases hnil : after = []
  · rw [hnil, List.append_nil, hscript.last]
    decide
  · rw [getLast?_append hnil]
    intro hlast
    have hblank := hafter _ (List.mem_of_getLast? hlast)
    exact absurd hblank (by decide)

/-- The blanks around a code block and its mark are taken off, and then its fence. -/
theorem unfence_trim {front mark inside script tail back : List Char} (hfront : Blanks front)
    (hback : Blanks back) (hmark : mark = jsonFence ∨ mark = fence) (hinside : Blanks inside)
    (hscript : Braced script)
    (hlast : ∀ c ∈ (inside ++ (script ++ tail)).getLast?, Text.isBlank c = false) :
    unfence (Text.trim (front ++ ((mark ++ (inside ++ (script ++ tail))) ++ back))) =
      dropFences (inside ++ (script ++ tail)) := by
  have hinner : inside ++ (script ++ tail) ≠ [] := by simp [hscript.ne_nil]
  rw [Text.trim_between hfront hback (bare_mark_append hmark hinner hlast)
      (List.append_ne_nil_of_right_ne_nil _ hinner),
    unfence_mark hmark (head_inside_ne hinside hscript), Text.trimEnd_of_last hlast]

/-- **The script is what is left of a body.** -/
theorem Written.trim_body {script body : List Char} (h : Written script body)
    (hscript : Braced script) : Text.trim (unfence (Text.trim body)) = script := by
  have hne := hscript.ne_nil
  cases h with
  | plain hfront hback =>
    have hhead : script.head? ≠ some '\x60' := by
      rw [hscript.head]
      decide
    rw [Text.trim_between hfront hback hscript.bare hne, unfence_of_head hhead,
      Text.trim_of_bare hscript.bare]
  | @fenced front mark inside after shut back hfront hmark hinside hafter hshut hback =>
    -- the blanks after the script are inside a code block that is shut, and after one that is not
    rcases hshut with rfl | rfl
    · have hbody : front ++ (mark ++ (inside ++ (script ++ (after ++ (fence ++ back))))) =
          front ++ ((mark ++ (inside ++ (script ++ (after ++ fence)))) ++ back) := by
        simp only [List.append_assoc]
      have hshut : inside ++ (script ++ (after ++ fence)) =
          (inside ++ (script ++ after)) ++ fence := by
        simp only [List.append_assoc]
      have hlast : ∀ c ∈ (inside ++ (script ++ (after ++ fence))).getLast?,
          Text.isBlank c = false := by
        rw [hshut, getLast?_append (by decide)]
        rintro _ ⟨⟩
        decide
      rw [hbody, unfence_trim hfront hback hmark hinside hscript hlast, hshut,
        dropFences_append (last_after_ne hafter hscript) (.inl rfl),
        Text.trim_between hinside hafter hscript.bare hne]
    · have hbody : front ++ (mark ++ (inside ++ (script ++ (after ++ ([] ++ back))))) =
          front ++ ((mark ++ (inside ++ (script ++ []))) ++ (after ++ back)) := by
        simp only [List.append_assoc, List.nil_append]
      have hlast : ∀ c ∈ (inside ++ (script ++ [])).getLast?, Text.isBlank c = false := by
        rw [List.append_nil, getLast?_append hne]
        exact hscript.bare.last
      have hopen := dropFences_append (@last_after_ne inside script [] .nil hscript) (.inr rfl)
      rw [List.append_nil] at hopen
      rw [hbody, unfence_trim hfront (hafter.append hback) hmark hinside hscript hlast, hopen,
        Text.trim_between hinside .nil hscript.bare hne]

/-! ## Objects -/

theorem Gap.blanks {text : List Char} (h : Json.Gap text) : Blanks text := by
  intro c hc
  have hgap := h c hc
  simp only [Json.isGap, Bool.or_eq_true, decide_eq_true_eq] at hgap
  obtain ((rfl | rfl) | rfl) | rfl := hgap
  all_goals decide

/-- The gaps of a script are blanks around it. -/
theorem Written.core {slot : Json.Slot} (hspaced : slot.Spaced) {body : List Char}
    (h : Written slot.whole body) : Written slot.text body := by
  have hfront := Gap.blanks hspaced.front
  have hback := Gap.blanks hspaced.back
  cases h with
  | @plain front back hleft hright =>
    have hbody : front ++ (slot.whole ++ back) =
        (front ++ slot.front) ++ (slot.text ++ (slot.back ++ back)) := by
      simp only [Json.Slot.whole, List.append_assoc]
    rw [hbody]
    exact .plain (hleft.append hfront) (hback.append hright)
  | @fenced front mark inside after shut back hleft hmark hinside hafter hshut hright =>
    have hbody : front ++ (mark ++ (inside ++ (slot.whole ++ (after ++ (shut ++ back))))) =
        front ++ (mark ++ ((inside ++ slot.front) ++
          (slot.text ++ ((slot.back ++ after) ++ (shut ++ back))))) := by
      simp only [Json.Slot.whole, List.append_assoc]
    rw [hbody]
    exact .fenced hleft hmark (hinside.append hfront) (hback.append hafter) hshut hright

theorem document?_slot {n : Nat} {slot : Json.Slot} (hspaced : slot.Spaced)
    (h : Json.ObjectText n slot.text) : document? slot.whole = document? slot.text := by
  have htight := Json.read_slot (Json.Slot.spaced_tight slot.text) h.valueText
  rw [Json.Slot.whole_tight] at htight
  exact (Json.read_slot hspaced h.valueText).trans htight.symm

/-! ## Whole texts -/

/-- **What stands between the sentinels is the script**, whatever stands around it. -/
theorem block?_of_embeds {script message : List Char} (hscript : Braced script)
    (hclosing : ¬ closing <:+: script) (h : Embeds script message) :
    block? message = some script := by
  obtain ⟨before, body, after, hopening, hbody, rfl⟩ := h
  have hnot : ¬ closing <:+: body := fun hoccurs => hclosing (hbody.closing_within hoccurs)
  rw [block?, sentinel_opening.cutAt? hopening]
  show (Text.cutAt? closing (body ++ (closing ++ after)) >>= _) = _
  rw [sentinel_closing.cutAt? hnot]
  exact congrArg some (hbody.trim_body hscript)

/-- **The plans of a script do not depend on the text around it.**  Whatever stands before the
opening sentinel, if it is no opening sentinel itself, and after the closing one, and however the
script is written between them, its plans are those of the script read as a document. -/
theorem plans_of_embedded (scope : String) {n : Nat} {script : List Char} {message : String}
    (hscript : Json.ObjectDocument n script) (hclosing : ¬ closing <:+: script)
    (h : Embeds script message.toList) :
    plans? scope message = (document? script).bind (Instruction.plans? scope) := by
  obtain ⟨slot, hspaced, hobject, rfl⟩ := hscript
  obtain ⟨before, body, after, hopening, hbody, hmessage⟩ := h
  have hcore : ¬ closing <:+: slot.text := by
    intro hoccurs
    refine hclosing (hoccurs.trans ⟨slot.front, slot.back, ?_⟩)
    rw [Json.Slot.whole, List.append_assoc]
  have hbraces := hobject.braces
  have hblock := block?_of_embeds ⟨hbraces.1, hbraces.2⟩ hcore
    ⟨before, body, after, hopening, hbody.core hspaced, hmessage⟩
  rw [plans?_eq, blockDocument?, hblock, Option.bind_some, document?_slot hspaced hobject]

/-- A script of one text. -/
def greeting : List Char := "\x7b\"messages\":[\x7b\"text\":\"hi\"\x7d]\x7d".toList

theorem objectText_greeting : Json.ObjectText 3 greeting := by
  have hchars : greeting =
      Json.chars (.obj [("messages", .arr [.obj [("text", .str "hi")]])]) := by
    decide +kernel
  rw [hchars]
  refine Json.objectText_of_fields fun field hfield => ?_
  obtain rfl := List.mem_singleton.1 hfield
  refine Json.valueText_chars (.arr fun item hitem => ?_)
  obtain rfl := List.mem_singleton.1 hitem
  refine .obj (Json.ascending_sortFields [("text", .str "hi")]) fun field hfield => ?_
  obtain rfl := List.mem_singleton.1 hfield
  exact .str "hi"

/-- A text with parts of sentinels before its script, and another script after it. -/
def crowded : String :=
  "a <mock-llm-in </mock-llm-instructions> <<mock-llm-instructions> \x60\x60\x60json\n" ++
  "\x7b\"messages\":[\x7b\"text\":\"hi\"\x7d]\x7d\n\x60\x60\x60 </mock-llm-instructions>" ++
  "<mock-llm-instructions>\x7b\x7d</mock-llm-instructions>"

theorem embeds_crowded : Embeds greeting crowded.toList := by
  refine ⟨"a <mock-llm-in </mock-llm-instructions> <".toList,
    " ".toList ++ (jsonFence ++ ("\n".toList ++ (greeting ++ ("\n".toList ++
      (fence ++ " ".toList))))),
    "<mock-llm-instructions>\x7b\x7d</mock-llm-instructions>".toList, by decide +kernel, ?_,
    by decide +kernel⟩
  exact .fenced (by decide) (.inl rfl) (by decide) (by decide) (.inl rfl) (by decide)

theorem plans_of_crowded : (plans? "0" crowded).isSome = true ∧
    plans? "0" crowded = (document? greeting).bind (Instruction.plans? "0") :=
  ⟨by decide +kernel,
    plans_of_embedded "0" objectText_greeting.document (by decide +kernel) embeds_crowded⟩

end ScriptedChat.Script
