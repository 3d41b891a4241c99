import ScriptedChat.Proofs.Binary64.Whole
import ScriptedChat.Proofs.Json.Scalar
import ScriptedChat.Proofs.Script.Stability
import ScriptedChat.Proofs.Text.Blank

/-!
# Lengths in a script

A script says how many words it wants as a number or as a text with the digits of
a number.  Either way the number is held between zero and the greatest number of
words.  A number that does not fit 64 bits with a sign becomes a floating-point
number on the way and is still held; a text of such a number asks for nothing, and
the step or the reasoning that it belongs to is left out.

* `Number.toInt64`, `wordCount?_num` — every number by way of 64 bits with a sign;
* `Spells`, `wordCount?_str_iff` — the texts that ask for words;
* `parts?_reasoning`, `reasoning_plan?` — the reasoning of an instruction;
* `AsksFor`, `Ignored` — what comes of a length in an instruction;
* `lengths_of_number` — both spellings of a number, and of a smaller one;
* `great_text_ignored` — the first number that asks for something in one spelling
  only.
-/

namespace ScriptedChat

/-! ## Numbers of 64 bits with a sign -/

/-- A number as a whole number of 64 bits with a sign, if it is one. -/
def Number.signed? : Number → Option Int
  | .int n => if Text.minInt64 ≤ n ∧ n ≤ Text.maxInt64 then some n else none
  | .real _ => none

/-- A number as a floating-point number. -/
def Number.toBinary64 : Number → Binary64
  | .int n => if n < 0 then (Binary64.ofNat n.natAbs).withSign true else Binary64.ofNat n.natAbs
  | .real x => x

/-- A number as a whole number of 64 bits with a sign: as it is if it is one, else by way of
floating-point numbers. -/
def Number.toInt64 (n : Number) : Int :=
  n.signed?.getD n.toBinary64.toInt64

/-- The numbers of JSON. -/
def Number.Proper : Number → Prop
  | .int n => Json.Fits n
  | .real x => x.isNaN = false

namespace Instruction

open Json
open Binary64 (SignedDigits)
open Text (Blanks)

/-! ## The number of words -/

theorem clampWords_eq (n : Int) : (clampWords n : Int) = min (max n 0) maxWords := by
  rw [clampWords]
  omega

theorem clampWords_mono {m n : Int} (h : m ≤ n) : clampWords m ≤ clampWords n := by
  have hm := clampWords_eq m
  have hn := clampWords_eq n
  omega

/-- All words that can be asked for are far below the bounds of 64 bits. -/
theorem clampWords_held (n : Int) :
    clampWords (max Text.minInt64 (min n Text.maxInt64)) = clampWords n := by
  have hmin : Text.minInt64 = -0x8000000000000000 := rfl
  have hmax : Text.maxInt64 = 0x7FFFFFFFFFFFFFFF := rfl
  have hwords : maxWords = 10000 := rfl
  rw [clampWords, clampWords]
  omega

/-- **A number asks for as many words as the number of 64 bits with a sign that it is made.** -/
theorem wordCount?_num {number : Number} (h : number.Proper) :
    wordCount? (.num number) = some (clampWords number.toInt64) := by
  cases number with
  | real x =>
    have hnumber : x.isNaN = false := h
    have hcast : (Number.real x).toInt64 = max Text.minInt64 (min x.truncate Text.maxInt64) := by
      show x.toInt64 = _
      rw [Binary64.toInt64, hnumber, if_neg Bool.false_ne_true]
    rw [hcast, clampWords_held]
    rfl
  | int n =>
    obtain ⟨hlow, hhigh⟩ := h
    show some (clampWords n) = some (clampWords (Number.int n).toInt64)
    by_cases hfits : n ≤ Text.maxInt64
    · have hsigned : (Number.int n).signed? = some n := if_pos ⟨hlow, hfits⟩
      rw [Number.toInt64, hsigned, Option.getD_some]
    · -- only numbers without a sign bit take the way of floating-point numbers
      have hmax : Text.maxInt64 = 0x7FFFFFFFFFFFFFFF := rfl
      have hwords : maxWords = 10000 := rfl
      have hclamp : clampWords n = clampWords Text.maxInt64 := by
        rw [clampWords, clampWords]
        omega
      have hsigned : (Number.int n).signed? = none := if_neg fun hrange => hfits hrange.2
      have hreal : (Number.int n).toBinary64 = Binary64.ofNat n.toNat := by
        have hnonneg : ¬ n < 0 := by omega
        have hnat : n.natAbs = n.toNat := by omega
        rw [Number.toBinary64, if_neg hnonneg, hnat]
      rw [Number.toInt64, hsigned, Option.getD_none, hreal,
        Binary64.toInt64_ofNat (by omega) (by omega), hclamp]

/-! ## Numbers as texts -/

/-- A text that spells a whole number: digits, perhaps after a sign, between blanks. -/
def Spells (text : String) (n : Int) : Prop :=
  ∃ front digits back, Blanks front ∧ SignedDigits digits n ∧ Blanks back ∧
    text.toList = front ++ (digits ++ back)

/-- The decimal digits of a number spell it. -/
theorem spells_of_decimal {text : String} {front back : List Char} {n : Int} (hfront : Blanks front)
    (hback : Blanks back) (htext : text = String.ofList (front ++ (Text.decimalInt n ++ back))) :
    Spells text n :=
  ⟨front, Text.decimalInt n, back, hfront, Binary64.signedDigits_decimalInt n, hback,
    by rw [htext, String.toList_ofList]⟩

theorem readInt?_trim_iff {text : String} {n : Int} :
    Text.readInt? (Text.trim text.toList) = some n ↔ Spells text n := by
  rw [Binary64.readInt?_eq_some_iff]
  constructor
  · intro h
    obtain ⟨front, back, hfront, hback, htext⟩ := Text.exists_around_trim text.toList
    exact ⟨front, _, back, hfront, h, hback, htext⟩
  · rintro ⟨front, digits, back, hfront, hdigits, hback, htext⟩
    have hbare := Binary64.bare_of_isMark (Binary64.isMark_of_signedDigits hdigits)
    have hne := Binary64.ne_nil_of_signedDigits hdigits
    rwa [htext, Text.trim_between hfront hback hbare hne]

/-- A text spells one number only. -/
theorem Spells.unique {text : String} {m n : Int} (hm : Spells text m) (hn : Spells text n) :
    m = n := by
  have hread := readInt?_trim_iff.2 hm
  rw [readInt?_trim_iff.2 hn] at hread
  exact (Option.some.inj hread).symm

/-- **The texts that ask for words** spell a whole number of 64 bits with a sign. -/
theorem wordCount?_str_iff {text : String} {words : Nat} :
    wordCount? (.str text) = some words ↔
      ∃ n, Spells text n ∧ (Text.minInt64 ≤ n ∧ n ≤ Text.maxInt64) ∧ clampWords n = words := by
  simp only [wordCount?, Text.readInt64?, Option.map_eq_some_iff, Option.filter_eq_some_iff,
    readInt?_trim_iff, Bool.and_eq_true, decide_eq_true_eq, and_assoc]

/-- A text asks for the words of the number that it spells, unless that is too great. -/
theorem wordCount?_of_spells {text : String} {n : Int} (h : Spells text n)
    (hlow : Text.minInt64 ≤ n) :
    wordCount? (.str text) = if n ≤ Text.maxInt64 then some (clampWords n) else none := by
  rw [wordCount?, Text.readInt64?, readInt?_trim_iff.2 h]
  split
  · rename_i hhigh
    rw [Option.filter_some, if_pos (by simp [hlow, hhigh]), Option.map_some]
  · rename_i hhigh
    rw [Option.filter_some, if_neg (by simp [hhigh]), Option.map_none]

/-! ## Lengths in an instruction -/

/-- The entry of a filler text, with the record that has its length. -/
def fillerEntry (record : Json) : Json :=
  .obj [("text_message", record)]

theorem step?_fillerEntry {record length : Json} (h : record.get? "length" = some length)
    (seed : String) (position : Nat) (lastUse : Option String) :
    step? seed position lastUse (fillerEntry record) = (wordCount? length).map .filler := by
  show (length? record).map Step.filler = (wordCount? length).map Step.filler
  rw [length?, h, Option.bind_some]

theorem hasStep_fillerEntry {record length : Json} (h : record.get? "length" = some length) :
    hasStep (fillerEntry record) = (wordCount? length).isSome := by
  rw [hasStep, step?_fillerEntry h, Option.isSome_map]

/-- The length of the reasoning of an instruction. -/
def reasoningLength? (instruction : Json) : Option Json := do
  let field ← Record.view? fieldNames instruction
  let inner ← (field "reasoning").bind (Record.view? ["length"])
  inner "length"

/-- The length of the reasoning is all that counts for it. -/
theorem parts?_reasoning {instruction : Json} {parts : Parts}
    (h : parts? instruction = some parts) :
    parts.reasoning = (reasoningLength? instruction).bind wordCount? := by
  simp only [parts?, Option.bind_eq_bind, Option.bind_eq_some_iff, Option.pure_def] at h
  obtain ⟨field, hfield, _, -, _, -, reasoning, hreasoning, _, -, h⟩ := h
  obtain rfl := Option.some.inj h
  rw [reasoningLength?, fieldNames, hfield]
  show reasoning.join = _
  unfold Record.optional at hreasoning
  split at hreasoning
  · rename_i hnone
    obtain rfl := Option.some.inj hreasoning
    simp [hnone]
  · rename_i hnull
    obtain rfl := Option.some.inj hreasoning
    simp [hnull, Record.view?]
  · rename_i record _ hrecord
    obtain ⟨words, hwords, rfl⟩ := Option.map_eq_some_iff.1 hreasoning
    obtain ⟨inner, hinner, hwords⟩ := Option.bind_eq_some_iff.1 hwords
    obtain rfl := Option.some.inj hwords
    simp [hrecord, hinner]

/-- What the length of the reasoning says is the reasoning of the plan, and there is a plan unless
there is no step and no word of reasoning either. -/
theorem reasoning_plan? {instruction length : Json} {parts : Parts}
    (h : parts? instruction = some parts) (hlength : reasoningLength? instruction = some length)
    (scope : String) (index : Nat) :
    (∀ plan, plan? scope index instruction = some plan → plan.reasoning = wordCount? length) ∧
      (plan? scope index instruction = none ↔
        parts.entries.countP hasStep = 0 ∧ (wordCount? length).getD 0 = 0) := by
  have hreasoning : parts.reasoning = wordCount? length := by
    rw [parts?_reasoning h, hlength, Option.bind_some]
  rw [plan?_eq_none_iff h, hreasoning]
  refine ⟨fun plan hplan => ?_, Iff.rfl⟩
  obtain ⟨others, hothers, -, hplan, -⟩ := plan?_eq_some hplan
  rw [hplan, Option.some.inj (hothers.symm.trans h), hreasoning]

/-- What comes of a length that asks for words. -/
structure AsksFor (length : Json) (words : Nat) : Prop where
  counted : wordCount? length = some words
  /-- a filler text of this length is shown, at the place that its entry has among those with a
  step -/
  shown : ∀ {instruction parts before record after}, parts? instruction = some parts →
    parts.entries = before ++ fillerEntry record :: after → record.get? "length" = some length →
    ∀ scope index, ∃ plan, plan? scope index instruction = some plan ∧
      plan.steps[before.countP hasStep]? = some (.filler words)
  /-- reasoning of this length is that of the plan, which is there unless it has nothing to show -/
  reasoned : ∀ {instruction parts}, parts? instruction = some parts →
    reasoningLength? instruction = some length → ∀ scope index,
    (∀ plan, plan? scope index instruction = some plan → plan.reasoning = some words) ∧
      (plan? scope index instruction = none ↔ parts.entries.countP hasStep = 0 ∧ words = 0)

/-- What comes of a length that asks for nothing. -/
structure Ignored (length : Json) : Prop where
  counted : wordCount? length = none
  /-- a filler text of this length is no step -/
  left_out : ∀ {record}, record.get? "length" = some length → hasStep (fillerEntry record) = false
  /-- reasoning of this length is none, and without steps there is no plan -/
  unreasoned : ∀ {instruction parts}, parts? instruction = some parts →
    reasoningLength? instruction = some length → ∀ scope index,
    (∀ plan, plan? scope index instruction = some plan → plan.reasoning = none) ∧
      (plan? scope index instruction = none ↔ parts.entries.countP hasStep = 0)

theorem asksFor_of_count {length : Json} {words : Nat} (h : wordCount? length = some words) :
    AsksFor length words := by
  refine ⟨h, ?_, ?_⟩
  · intro instruction parts before record after hparts hentries hlength scope index
    have hsteps := steps_plan? hparts scope index
    rw [hentries, stepsFrom_split, step?_fillerEntry hlength, h] at hsteps
    cases hplan : plan? scope index instruction with
    | none =>
      rw [hplan] at hsteps
      simp at hsteps
    | some plan =>
      rw [hplan, Option.elim_some] at hsteps
      refine ⟨plan, rfl, ?_⟩
      rw [hsteps, ← length_stepsFrom (seed scope index (parts.label index)) 0 none before,
        List.getElem?_append_right (Nat.le_refl _), Nat.sub_self]
      rfl
  · intro instruction parts hparts hlength scope index
    have hreasoning := reasoning_plan? hparts hlength scope index
    rwa [h, Option.getD_some] at hreasoning

theorem ignored_of_count {length : Json} (h : wordCount? length = none) : Ignored length := by
  refine ⟨h, ?_, ?_⟩
  · intro record hlength
    rw [hasStep_fillerEntry hlength, h]
    rfl
  · intro instruction parts hparts hlength scope index
    have hreasoning := reasoning_plan? hparts hlength scope index
    rw [h, Option.getD_none] at hreasoning
    simpa using hreasoning

/-! ## Numbers and texts -/

/-- The two spellings of a whole number as a length. -/
inductive Spelling : Json → Int → Prop where
  | number (n : Int) : Spelling (.int n) n
  | text {text : String} {n : Int} (spelled : Spells text n) : Spelling (.str text) n

/-- However a number is spelled, it asks for its words if it asks for any. -/
theorem eq_clampWords_of_spelling {length : Json} {n : Int} {words : Nat} (h : Spelling length n)
    (hwords : wordCount? length = some words) : words = clampWords n := by
  cases h with
  | number => exact (Option.some.inj hwords).symm
  | text hspelled =>
    obtain ⟨m, hm, -, rfl⟩ := wordCount?_str_iff.1 hwords
    rw [hm.unique hspelled]

/-- **A length is held within bounds, as a number and as a text**, and a smaller one asks for no
more words in any spelling.  But a text has to fit 64 bits with a sign, where a number needs none. -/
theorem lengths_of_number {n : Int} (hfits : Json.Fits n) :
    ∃ words : Nat, (words : Int) = min (max n 0) maxWords ∧
      clampWords (Number.int n).toInt64 = words ∧
      AsksFor (.int n) words ∧
      (∀ text, Spells text n → n ≤ Text.maxInt64 → AsksFor (.str text) words) ∧
      (∀ text, Spells text n → Text.maxInt64 < n → Ignored (.str text)) ∧
      ∀ m length fewer, m ≤ n → Spelling length m → wordCount? length = some fewer →
        fewer ≤ words := by
  have hnumber : wordCount? (.int n) = some (clampWords n) := rfl
  have hproper : (Number.int n).Proper := hfits
  have hcast := wordCount?_num hproper
  refine ⟨clampWords n, clampWords_eq n, ?_, asksFor_of_count hnumber, ?_, ?_, ?_⟩
  · exact (Option.some.inj (hnumber.symm.trans hcast)).symm
  · intro text hspelled hhigh
    apply asksFor_of_count
    rw [wordCount?_of_spells hspelled hfits.1, if_pos hhigh]
  · intro text hspelled hgreat
    apply ignored_of_count
    rw [wordCount?_of_spells hspelled hfits.1, if_neg (Int.not_le.2 hgreat)]
  · intro m length fewer hle hspelling hcount
    rw [eq_clampWords_of_spelling hspelling hcount]
    exact clampWords_mono hle

/-- An instruction with a length for a filler text and for reasoning. -/
def lengthy (length : Json) : Json :=
  .obj [("messages", .arr [.str "?", fillerEntry (.obj [("length", length)])]),
    ("reasoning", .obj [("length", length)])]

theorem lengths_of_number_greatest :
    Json.Fits 9223372036854775807 ∧ Spells "\t9223372036854775807 " 9223372036854775807 ∧
      AsksFor (.int 9223372036854775807) maxWords ∧
      AsksFor (.str "\t9223372036854775807 ") maxWords ∧
      (∃ plan, plan? "0" 0 (lengthy (.str "\t9223372036854775807 ")) = some plan ∧
        plan.reasoning = some maxWords ∧ plan.steps[0]? = some (.filler maxWords)) ∧
      wordCount? (.str "-3") = some 0 ∧ 0 ≤ maxWords := by
  have hfits : Json.Fits 9223372036854775807 := by decide
  have hspells : Spells "\t9223372036854775807 " 9223372036854775807 :=
    spells_of_decimal (by decide : Blanks ['\t']) (by decide : Blanks [' ']) (by decide +kernel)
  have hless : Spells "-3" (-3) :=
    spells_of_decimal Text.Blanks.nil Text.Blanks.nil (by decide +kernel)
  obtain ⟨words, hwords, -, hnumber, htext, -, hmono⟩ := lengths_of_number hfits
  obtain rfl : words = maxWords := by
    have hmax : maxWords = 10000 := rfl
    omega
  have hasks := htext _ hspells (by decide)
  let record : Json := .obj [("length", .str "\t9223372036854775807 ")]
  let entries : List Json := [.str "?"] ++ fillerEntry record :: []
  have hparts : parts? (lengthy (.str "\t9223372036854775807 ")) =
      some { id := none, message := none, reasoning := some maxWords, entries } := by rfl
  have hentries : entries = [.str "?"] ++ fillerEntry record :: [] := rfl
  obtain ⟨plan, hplan, hstep⟩ := hasks.shown hparts hentries rfl "0" 0
  refine ⟨hfits, hspells, hnumber, hasks, ⟨plan, hplan, ?_, hstep⟩, by decide +kernel, ?_⟩
  · exact (hasks.reasoned hparts rfl "0" 0).1 plan hplan
  · exact hmono (-3) _ 0 (by decide) (.text hless) (by decide +kernel)

/-- The first number that is too great for 64 bits with a sign asks for all words as a number, and
for none as a text, although the number before it asks for all of them in both spellings. -/
theorem great_text_ignored :
    Json.Fits 9223372036854775808 ∧ Spells "9223372036854775808" 9223372036854775808 ∧
      wordCount? (.int 9223372036854775808) = some maxWords ∧
      wordCount? (.str "9223372036854775808") = none ∧
      wordCount? (.str "9223372036854775807") = some maxWords ∧
      (plan? "0" 0 (lengthy (.int 9223372036854775808))).isSome = true ∧
      plan? "0" 0 (lengthy (.str "9223372036854775808")) = none := by
  have hspells : Spells "9223372036854775808" 9223372036854775808 :=
    spells_of_decimal Text.Blanks.nil Text.Blanks.nil (by decide +kernel)
  exact ⟨by decide, hspells, rfl, by decide +kernel, by decide +kernel, by decide +kernel,
    by decide +kernel⟩

end Instruction

end ScriptedChat
