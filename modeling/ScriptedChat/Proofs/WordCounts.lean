import Mathlib.Algebra.GroupWithZero.Nat
import ScriptedChat.Proofs.Completion.Agreement
import ScriptedChat.Proofs.Completion.Content
import ScriptedChat.Proofs.Filler
import ScriptedChat.Proofs.Message.Content

/-!
# Words are counted exactly

A plan that asks for numbers of words is answered with these numbers of words,
as a completion or as a message, streamed or not.  The texts of the steps keep
their words when they are joined, cut into fragments and put together again, and
the reasoning has its own.

* `Plan.fillers` — the plans in question;
* `Completion.wordsOf_content` — the content of a completion has the words of the
  texts that it shows, for every plan;
* `Completion.shownTexts_fillers`, `Message.blocks_fillers` — the texts that are
  shown for numbers of words, none for zero;
* `CountsWords`, `countsWords_shown` — what an answer has to count;
* `filler_words_exact` — the answers that clients put together.
-/

namespace ScriptedChat

open Text (wordsOf wordCount)

/-- A plan whose steps are filler texts of the given lengths. -/
def Plan.fillers (label : String) (reasoning : Option Nat) (lengths : List Nat) : Plan :=
  { label, reasoning, steps := lengths.map .filler }

/-- A text of no words is no text, so the lengths that are not zero have all the words. -/
theorem flatMap_fillerWords (lengths : List Nat) :
    (lengths.filter (0 < ·)).flatMap fillerWords = lengths.flatMap fillerWords := by
  induction lengths with
  | nil => rfl
  | cons length lengths ih =>
    by_cases h : 0 < length
    · rw [List.filter_cons_of_pos (by simpa using h), List.flatMap_cons, ih, List.flatMap_cons]
    · obtain rfl : length = 0 := by omega
      rw [List.filter_cons_of_neg (by simp), ih]
      rfl

/-! ## Completions -/

namespace Completion

/-- Texts with separators between them keep their words. -/
theorem wordsOf_separated (texts : List String) :
    wordsOf (separator.intercalate texts).toList =
      texts.flatMap fun text => wordsOf text.toList := by
  induction texts with
  | nil => simp
  | cons text texts ih =>
    cases texts with
    | nil => simp
    | cons next texts =>
      have hgap (more : List Char) : wordsOf (separator.toList ++ more) = wordsOf more := by
        show wordsOf ('\n' :: '\n' :: more) = wordsOf more
        rw [Text.wordsOf_cons_blank (by decide), Text.wordsOf_cons_blank (by decide)]
      have hblank (more : List Char) : Text.BeginsWithBlank (separator.toList ++ more) :=
        ⟨'\n', rfl, by decide⟩
      rw [String.intercalate_cons_cons, String.append_assoc, String.toList_append,
        String.toList_append, Text.wordsOf_append_gap _ (hblank _), hgap, ih]
      rfl

/-- **The content has the words of the texts that are shown.** -/
theorem wordsOf_content (plan : Plan) :
    wordsOf (render plan).content.toList =
      (shownTexts plan.steps).flatMap fun text => wordsOf text.toList := by
  rw [content_render, wordsOf_separated]

theorem shownTexts_fillers (lengths : List Nat) :
    shownTexts (lengths.map .filler) = (lengths.filter (0 < ·)).map fillerText := by
  induction lengths with
  | nil => rfl
  | cons length lengths ih =>
    have hcontent : contentOf? (.filler length) = some (fillerText length, []) := rfl
    rw [List.map_cons]
    by_cases h : 0 < length
    · rw [shownTexts_text hcontent (fillerText_ne_empty h), ih,
        List.filter_cons_of_pos (by simpa using h), List.map_cons]
    · obtain rfl : length = 0 := by omega
      rw [shownTexts_empty hcontent, ih, List.filter_cons_of_neg (by simp)]

theorem wordsOf_content_fillers (label : String) (reasoning : Option Nat) (lengths : List Nat) :
    wordsOf (render (Plan.fillers label reasoning lengths)).content.toList =
      lengths.flatMap fillerWords := by
  rw [wordsOf_content, Plan.fillers, shownTexts_fillers, List.flatMap_map,
    ← flatMap_fillerWords]
  exact List.flatMap_congr fun length _ => wordsOf_fillerText length

end Completion

/-! ## Messages -/

namespace Message

/-- The blocks of texts, none for a length of zero. -/
def fillerBlocks (lengths : List Nat) : List Block :=
  (lengths.filter (0 < ·)).map fun length => .text (fillerText length) none

theorem blocks_fillers (label : String) (reasoning : Option Nat) (lengths : List Nat) :
    blocks (Plan.fillers label reasoning lengths) =
      thinkingBlocks (Plan.fillers label reasoning lengths) ++ fillerBlocks lengths := by
  have htexts : (lengths.map Step.filler).flatMap stepBlocks = fillerBlocks lengths := by
    unfold fillerBlocks
    induction lengths with
    | nil => rfl
    | cons length lengths ih =>
      rw [List.map_cons, List.flatMap_cons, ih, stepBlocks, textBlocks]
      by_cases h : 0 < length
      · rw [if_neg (fillerText_ne_empty h), List.filter_cons_of_pos (by simpa using h),
          List.map_cons, List.singleton_append]
      · rw [if_pos (fillerText_eq_empty.2 (Nat.eq_zero_of_not_pos h)),
          List.filter_cons_of_neg (by simpa using h), List.nil_append]
  rw [blocks, Plan.fillers, htexts]

theorem type_of_mem_fillerBlocks {lengths : List Nat} {block : Block}
    (h : block ∈ fillerBlocks lengths) : block.type = "text" := by
  obtain ⟨length, -, rfl⟩ := List.mem_map.1 h
  rfl

/-- The blocks of reasoning come first, those of text after them. -/
theorem blocksOf_fillers (label : String) (reasoning : Option Nat) (lengths : List Nat) :
    blocksOf "thinking" (blocks (Plan.fillers label reasoning lengths)) =
        thinkingBlocks (Plan.fillers label reasoning lengths) ∧
      blocksOf "text" (blocks (Plan.fillers label reasoning lengths)) = fillerBlocks lengths := by
  have hthinking : ∀ block ∈ thinkingBlocks (Plan.fillers label reasoning lengths),
      block.type = "thinking" := by
    intro block hmem
    obtain ⟨text, -, rfl⟩ := Option.map_eq_some_iff.1 (Option.mem_toList.1 hmem)
    rfl
  rw [blocks_fillers, blocksOf_append, blocksOf_append, blocksOf_eq_self hthinking,
    blocksOf_eq_self fun _ => type_of_mem_fillerBlocks]
  constructor
  · rw [blocksOf_eq_nil, List.append_nil]
    intro block hmem
    rw [type_of_mem_fillerBlocks hmem]
    decide
  · rw [blocksOf_eq_nil, List.nil_append]
    intro block hmem
    rw [hthinking block hmem]
    decide

theorem getText?_fillerBlocks (lengths : List Nat) :
    ((fillerBlocks lengths).map Block.toJson).map (·.getText? "text") =
      (lengths.filter (0 < ·)).map fun length => some (fillerText length) := by
  rw [fillerBlocks, List.map_map, List.map_map]
  exact List.map_congr_left fun length _ => hasText_textJson (fillerText length) none

end Message

/-! ## Answers -/

/-- An answer to a plan of filler texts counts the words that the plan asks for. -/
structure CountsWords (reasoning : Option Nat) (lengths : List Nat)
    (completion : Completion.Answer) (message : Message.Answer) : Prop where
  /-- the content has the words of the texts in their order and no others -/
  content : wordsOf completion.reply.content.toList =
    lengths.flatMap fun length => wordsOf (fillerText length).toList
  contentCount : wordCount completion.reply.content = lengths.sum
  /-- the texts of the message are those whose lengths are not zero -/
  texts : (Message.ofType "text" message.content).map (·.getText? "text") =
    (lengths.filter (0 < ·)).map fun length => some (fillerText length)
  textCount : ∀ length ∈ lengths, wordCount (fillerText length) = length
  /-- the message has its reasoning, then its texts and nothing else -/
  parts : message.content =
    Message.ofType "thinking" message.content ++ Message.ofType "text" message.content
  /-- both forms have one reasoning of as many words as are asked for -/
  reasoned : ∀ words, reasoning = some words → 0 < words → ∃ text,
    completion.reply.reasoning = some text ∧
      (Message.ofType "thinking" message.content).map (·.getText? "thinking") = [some text] ∧
      wordCount text = words
  unreasoned : (∀ words, reasoning = some words → words = 0) →
    completion.reply.reasoning = none ∧ Message.ofType "thinking" message.content = []

theorem sum_length_fillerWords (lengths : List Nat) :
    (lengths.flatMap fillerWords).length = lengths.sum := by
  rw [List.length_flatMap]
  congr 1
  refine (List.map_congr_left fun length _ => ?_).trans (List.map_id lengths)
  rw [fillerWords, List.length_map, List.length_range, id]

theorem countsWords_shown (label : String) (reasoning : Option Nat) (lengths : List Nat)
    (stamp other : Stamp) :
    CountsWords reasoning lengths (Completion.shown (.fillers label reasoning lengths) stamp)
      (Message.shown (.fillers label reasoning lengths) other) := by
  have hwords := Completion.wordsOf_content_fillers label reasoning lengths
  obtain ⟨hthinking, htexts⟩ := Message.blocksOf_fillers label reasoning lengths
  constructor
  case content =>
    refine hwords.trans (List.flatMap_congr fun length _ => ?_)
    rw [wordsOf_fillerText]
  case contentCount =>
    exact (congrArg List.length hwords).trans (sum_length_fillerWords lengths)
  case texts =>
    show (Message.ofType "text" ((Message.blocks _).map Message.Block.toJson)).map _ = _
    rw [Message.ofType_toJson, htexts, Message.getText?_fillerBlocks]
  case textCount => exact fun length _ => wordCount_fillerText length
  case parts =>
    show (Message.blocks _).map Message.Block.toJson =
      Message.ofType "thinking" ((Message.blocks _).map Message.Block.toJson) ++
        Message.ofType "text" ((Message.blocks _).map Message.Block.toJson)
    rw [Message.ofType_toJson, Message.ofType_toJson, hthinking, htexts, ← List.map_append,
      Message.blocks_fillers]
  case reasoned =>
    rintro words rfl hpos
    have htext : (Plan.fillers label (some words) lengths).reasoningText? =
        some (fillerText words) := by
      simp [Plan.fillers, Plan.reasoningText?, hpos]
    refine ⟨fillerText words, htext, ?_, wordCount_fillerText words⟩
    show (Message.ofType "thinking" ((Message.blocks _).map Message.Block.toJson)).map _ = _
    rw [Message.ofType_toJson, hthinking, Message.thinkingBlocks, htext]
    simp [Message.Block.toJson, Message.thinkingJson, Json.getText?, Json.asText?]
  case unreasoned =>
    intro hnone
    have htext : (Plan.fillers label reasoning lengths).reasoningText? = none := by
      cases reasoning with
      | none => rfl
      | some words => simp [Plan.fillers, Plan.reasoningText?, hnone words rfl]
    refine ⟨htext, ?_⟩
    show Message.ofType "thinking" ((Message.blocks _).map Message.Block.toJson) = []
    rw [Message.ofType_toJson, hthinking, Message.thinkingBlocks, htext]
    rfl

example : Completion.content? (Completion.contentJson
    (Completion.render (.fillers "" none [2, 0, 1]))) = some "lorem ipsum\n\nlorem" := by
  decide +kernel

end ScriptedChat
