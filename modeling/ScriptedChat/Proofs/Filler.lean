import Mathlib.Data.List.Basic
import ScriptedChat.Proofs.Text.WordCut
import ScriptedChat.Stamp

/-!
# Filler text has the words that are asked for

* `wordsOf_fillerText`, `wordCount_fillerText` — the words of filler text, and
  their number;
* `wordsOf_fillerText_take` — shorter filler text begins longer filler text;
* `fillerText_ne_empty`, `Plan.reasoningText?_ne_empty` — a number of words that
  is not zero makes a text that is not empty;
* `toNat_stableLength`, `stableLength_mem` — the length that a text has, without
  the arithmetic of machine words, and its range.
-/

namespace ScriptedChat

open Text (wordsOf wordCount isBlank)

/-! ## Words -/

theorem letters_vocabulary :
    ∀ word ∈ vocabulary, word.toList ≠ [] ∧ ∀ c ∈ word.toList, isBlank c = false := by
  have hall : (vocabulary.all fun word =>
      !word.toList.isEmpty && word.toList.all fun c => !isBlank c) = true := by
    decide +kernel
  intro word hmem
  have hword := List.all_eq_true.1 hall word hmem
  simpa only [Bool.and_eq_true, Bool.not_eq_true', List.isEmpty_eq_false_iff, List.all_eq_true]
    using hword

theorem fillerWord_letters (i : Nat) : fillerWord i ≠ [] ∧ ∀ c ∈ fillerWord i, isBlank c = false := by
  have hlt : i % vocabulary.length < vocabulary.length := Nat.mod_lt _ (by decide)
  have hmem : vocabulary.getD (i % vocabulary.length) "" ∈ vocabulary := by
    rw [List.getD_eq_getElem?_getD, List.getElem?_eq_getElem hlt]
    exact List.getElem_mem hlt
  exact letters_vocabulary _ hmem

/-- **The words of filler text.** -/
theorem wordsOf_fillerText (count : Nat) : wordsOf (fillerText count).toList = fillerWords count := by
  rw [fillerText, String.toList_ofList]
  refine Text.wordsOf_intercalate (by decide) fun word hword => ?_
  obtain ⟨i, -, rfl⟩ := List.mem_map.1 hword
  exact fillerWord_letters i

theorem wordCount_fillerText (count : Nat) : wordCount (fillerText count) = count := by
  rw [wordCount, wordsOf_fillerText, fillerWords, List.length_map, List.length_range]

/-- **Shorter filler text begins longer filler text.** -/
theorem wordsOf_fillerText_take {n m : Nat} (h : n ≤ m) :
    wordsOf (fillerText n).toList = (wordsOf (fillerText m).toList).take n := by
  rw [wordsOf_fillerText, wordsOf_fillerText, fillerWords, fillerWords, ← List.map_take,
    List.take_range, Nat.min_eq_left h]

/-! ## Texts that are not empty -/

theorem fillerText_ne_empty {count : Nat} (h : 0 < count) : fillerText count ≠ "" := by
  intro hempty
  have hcount := wordCount_fillerText count
  rw [hempty] at hcount
  exact absurd hcount (Nat.ne_of_lt h)

theorem fillerText_eq_empty {count : Nat} : fillerText count = "" ↔ count = 0 := by
  refine ⟨fun hempty => ?_, fun hzero => by rw [hzero]; rfl⟩
  by_contra hne
  exact fillerText_ne_empty (Nat.pos_of_ne_zero hne) hempty

/-- Reasoning that is there has at least one word. -/
theorem Plan.reasoningText?_ne_empty {plan : Plan} {text : String}
    (h : plan.reasoningText? = some text) : text ≠ "" := by
  obtain ⟨words, hwords, rfl⟩ := Option.map_eq_some_iff.1 h
  obtain ⟨_, hpos⟩ := Option.filter_eq_some_iff.1 hwords
  exact fillerText_ne_empty (of_decide_eq_true hpos)

/-! ## Lengths that depend on a text -/

/-- There is no overflow as long as 64 bits are enough to count the numbers of a range. -/
theorem toNat_lengthSpan_of_lt {min max : UInt64} (h : min ≤ max)
    (hlt : max.toNat - min.toNat + 1 < UInt64.size) :
    (lengthSpan min max).toNat = max.toNat - min.toNat + 1 := by
  rw [lengthSpan, UInt64.toNat_add, UInt64.toNat_sub_of_le _ _ h, UInt64.toNat_one]
  exact Nat.mod_eq_of_lt hlt

/-- They are as long as a range does not begin with zero. -/
theorem toNat_lengthSpan {min max : UInt64} (hmin : 0 < min) (h : min ≤ max) :
    (lengthSpan min max).toNat = max.toNat - min.toNat + 1 := by
  have hpos : 0 < min.toNat := UInt64.lt_iff_toNat_lt.1 hmin
  have hle : min.toNat ≤ max.toNat := UInt64.le_iff_toNat_le.1 h
  have hspan : max.toNat - min.toNat + 1 ≤ max.toNat := by omega
  exact toNat_lengthSpan_of_lt h (hspan.trans_lt max.toNat_lt)

/-- **The length that a text has in a range.** -/
theorem toNat_stableLength (seed : String) {min max : UInt64} (hmin : 0 < min) (h : min ≤ max) :
    (stableLength seed min max).toNat =
      min.toNat +
        (bigEndian ((textDigest seed).take 8)).toNat % (max.toNat - min.toNat + 1) := by
  rw [stableLength]
  split
  · rename_i hle
    obtain rfl := UInt64.le_antisymm h hle
    rw [Nat.sub_self, Nat.mod_one, Nat.add_zero]
  · have hspan := toNat_lengthSpan hmin h
    have hle : min.toNat ≤ max.toNat := UInt64.le_iff_toNat_le.1 h
    have hmax : max.toNat < 2 ^ 64 := max.toNat_lt
    have hmod : (bigEndian ((textDigest seed).take 8)).toNat % (max.toNat - min.toNat + 1) <
        max.toNat - min.toNat + 1 := Nat.mod_lt _ (Nat.succ_pos _)
    rw [UInt64.toNat_add, UInt64.toNat_mod, hspan]
    exact Nat.mod_eq_of_lt (by omega)

/-- **It is a length of the range.** -/
theorem stableLength_mem (seed : String) {min max : UInt64} (hmin : 0 < min) (h : min ≤ max) :
    min.toNat ≤ (stableLength seed min max).toNat ∧
      (stableLength seed min max).toNat ≤ max.toNat := by
  have hle : min.toNat ≤ max.toNat := UInt64.le_iff_toNat_le.1 h
  have hmod : (bigEndian ((textDigest seed).take 8)).toNat % (max.toNat - min.toNat + 1) <
      max.toNat - min.toNat + 1 := Nat.mod_lt _ (Nat.succ_pos _)
  rw [toNat_stableLength seed hmin h]
  omega

end ScriptedChat
