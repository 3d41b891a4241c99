import Mathlib.Data.List.Induction
import ScriptedChat.Proofs.Text.Words

/-!
# Word fragments in one pass

The fragments of a text can be found without cutting it into pieces first: one
pass over its characters, which remembers five values, closes a fragment as soon
as a word begins that has no place in it.

* `Pass`, `Pass.step`, `Pass.finish` — what the pass remembers, and how a
  character and the end of the text change it;
* `Pass.Holds` — what the five values say about the characters read so far;
* `Pass.Holds.step`, `Pass.holds_run` — one character, and from it all of them;
* `passFragments_eq` — the fragments are those of `wordFragments`.
-/

namespace ScriptedChat.Text

/-! ## The pass -/

/-- What one pass over a text remembers. -/
structure Pass where
  /-- the fragments that are closed -/
  closed : List (List Char)
  /-- where the open fragment begins -/
  start : Nat
  /-- the words of the open fragment -/
  words : Nat
  /-- whether the last character belongs to a word -/
  inWord : Bool
  /-- where the newest gap after a word begins -/
  gap : Option Nat

def Pass.begin : Pass where
  closed := []
  start := 0
  words := 0
  inWord := false
  gap := none

/-- Closes the open fragment before the newest gap. -/
def Pass.close (text : List Char) (pass : Pass) : Pass :=
  match pass.gap with
  | some gap =>
    { pass with
      closed := pass.closed ++ [(text.take gap).drop pass.start]
      start := gap
      words := 0 }
  | none => pass

/-- The pass after one more character.  A word that begins closes a fragment that is full. -/
def Pass.step (size : Nat) (text : List Char) (pass : Pass) (c : Char) (place : Nat) : Pass :=
  if isBlank c then
    { pass with gap := if pass.inWord then some place else pass.gap, inWord := false }
  else if pass.inWord then pass
  else
    let pass := if pass.words = size then pass.close text else pass
    { pass with inWord := true, words := pass.words + 1 }

/-- The pass after the first characters of a text. -/
def Pass.run (size : Nat) (text seen : List Char) : Pass :=
  seen.zipIdx.foldl (fun pass (c, place) => pass.step size text c place) .begin

/-- All fragments at the end of the text. -/
def Pass.finish (text : List Char) (pass : Pass) : List (List Char) :=
  if pass.start < text.length then pass.closed ++ [text.drop pass.start] else pass.closed

/-- The text in fragments of `size` words, found in one pass; a size of zero counts as one. -/
def passFragments (size : Nat) (text : String) : List String :=
  ((Pass.run (max size 1) text.toList text.toList).finish text.toList).map String.ofList

theorem Pass.run_append (size : Nat) (text seen : List Char) (c : Char) :
    Pass.run size text (seen ++ [c]) = (Pass.run size text seen).step size text c seen.length := by
  rw [Pass.run, List.zipIdx_append, List.foldl_append]
  simp [Pass.run]

/-! ## What the pass knows -/

/-- The fragments of `size` words, as characters. -/
def fragmentsOf (size : Nat) (text : List Char) : List (List Char) :=
  (groupsOf size (pieces text)).map List.flatten

theorem ofList_fragmentsOf (size : Nat) (text : String) :
    (fragmentsOf size text.toList).map String.ofList = wordFragments size text := by
  rw [fragmentsOf, List.map_map]
  rfl

theorem fragmentsOf_max (size : Nat) (text : List Char) :
    fragmentsOf (max size 1) text = fragmentsOf size text := by
  rw [fragmentsOf, groupsOf_max, fragmentsOf]

/-- What the five values say about the characters read so far.  The open fragment is what has been
read from `start` on. -/
structure Pass.Holds (size : Nat) (seen : List Char) (pass : Pass) : Prop where
  start_le : pass.start ≤ seen.length
  words_eq : pass.words = (wordsOf (seen.drop pass.start)).length
  words_le : pass.words ≤ size
  inWord_iff : pass.inWord = true ↔ EndsInWord (seen.drop pass.start)
  /-- the newest gap divides the open fragment into words and the blanks after them -/
  gap_eq : pass.inWord = false → pass.words ≠ 0 → ∃ kept blanks,
    seen.drop pass.start = kept ++ blanks ∧ EndsInWord kept ∧ BeginsWithBlank blanks ∧
      wordsOf blanks = [] ∧ pass.gap = some (pass.start + kept.length)
  /-- whatever follows, the closed fragments are those of the whole text -/
  closed_eq : ∀ rest, fragmentsOf size (seen ++ rest) =
    pass.closed ++ fragmentsOf size (seen.drop pass.start ++ rest)

theorem Pass.holds_begin (size : Nat) : Pass.begin.Holds size [] where
  start_le := Nat.le_refl 0
  words_eq := by simp [Pass.begin]
  words_le := Nat.zero_le size
  inWord_iff := by simp [Pass.begin, not_endsInWord_nil]
  gap_eq := fun _ h => absurd rfl h
  closed_eq := fun _ => rfl

variable {size : Nat} {text seen : List Char} {pass : Pass}

/-- The open fragment after one more character. -/
theorem Pass.Holds.drop_append (h : pass.Holds size seen) (c : Char) :
    (seen ++ [c]).drop pass.start = seen.drop pass.start ++ [c] :=
  List.drop_append_of_le_length h.start_le

theorem Pass.Holds.closed_append (h : pass.Holds size seen) (c : Char) (rest : List Char) :
    fragmentsOf size (seen ++ [c] ++ rest) =
      pass.closed ++ fragmentsOf size (seen.drop pass.start ++ [c] ++ rest) := by
  rw [List.append_assoc, h.closed_eq, List.append_assoc]

/-! ## One more character -/

/-- A blank ends a word, and belongs to the gap after it. -/
theorem Pass.Holds.blank (h : pass.Holds size seen) {c : Char} (hc : isBlank c = true) :
    Pass.Holds size (seen ++ [c])
      { pass with gap := if pass.inWord then some seen.length else pass.gap, inWord := false } where
  start_le := by
    have hle := h.start_le
    simp only [List.length_append]
    omega
  words_eq := by
    rw [h.drop_append, wordsOf_append_blank hc]
    exact h.words_eq
  words_le := h.words_le
  inWord_iff := by
    rw [h.drop_append, endsInWord_append_singleton, hc]
    simp
  gap_eq := by
    intro _ hwords
    rw [h.drop_append]
    by_cases hin : pass.inWord = true
    · have hlen : pass.start + (seen.drop pass.start).length = seen.length := by
        have hle := h.start_le
        rw [List.length_drop]
        omega
      refine ⟨seen.drop pass.start, [c], rfl, h.inWord_iff.1 hin, ⟨c, rfl, hc⟩, ?_, ?_⟩
      · rw [wordsOf_cons_blank hc, wordsOf_nil]
      · rw [hlen]
        simp [hin]
    · obtain ⟨kept, blanks, hopen, hkept, hblanks, hnone, hgap⟩ :=
        h.gap_eq (Bool.eq_false_iff.2 hin) hwords
      refine ⟨kept, blanks ++ [c], ?_, hkept, hblanks.append [c], ?_, ?_⟩
      · rw [hopen, List.append_assoc]
      · rw [wordsOf_append_blank hc, hnone]
      · simp [hin, hgap]
  closed_eq := by
    intro rest
    rw [h.closed_append, h.drop_append]

/-- A letter goes on with the word that stands before it. -/
theorem Pass.Holds.letter (h : pass.Holds size seen) {c : Char} (hc : isBlank c = false)
    (hin : pass.inWord = true) : pass.Holds size (seen ++ [c]) where
  start_le := by
    have hle := h.start_le
    simp only [List.length_append]
    omega
  words_eq := by
    rw [h.drop_append, length_wordsOf_append_letter hc (h.inWord_iff.1 hin)]
    exact h.words_eq
  words_le := h.words_le
  inWord_iff := by
    rw [h.drop_append, endsInWord_append_singleton, hc, hin]
    simp
  gap_eq := by
    intro hout
    rw [hin] at hout
    exact absurd hout nofun
  closed_eq := by
    intro rest
    rw [h.closed_append, h.drop_append]

/-- A word begins in a fragment that has room for it. -/
theorem Pass.Holds.word (h : pass.Holds size seen) {c : Char} (hc : isBlank c = false)
    (hout : pass.inWord = false) (hroom : pass.words < size) :
    Pass.Holds size (seen ++ [c]) { pass with inWord := true, words := pass.words + 1 } where
  start_le := by
    have hle := h.start_le
    simp only [List.length_append]
    omega
  words_eq := by
    have hbefore : ¬ EndsInWord (seen.drop pass.start) := by
      rw [← h.inWord_iff, hout]
      exact nofun
    rw [h.drop_append, wordsOf_append_letter hc hbefore, List.length_append, ← h.words_eq]
    rfl
  words_le := hroom
  inWord_iff := by
    rw [h.drop_append, endsInWord_append_singleton, hc]
    simp
  gap_eq := fun hnot => absurd hnot nofun
  closed_eq := by
    intro rest
    rw [h.closed_append, h.drop_append]

/-- A text of one fragment, and a word with the gap before it: the fragment is cut off. -/
theorem fragmentsOf_cut {kept blanks : List Char} {c : Char}
    (hkept : EndsInWord kept) (hwords : (wordsOf kept).length = size)
    (hblanks : BeginsWithBlank blanks) (hc : isBlank c = false) (rest : List Char) :
    fragmentsOf size (kept ++ (blanks ++ c :: rest)) =
      kept :: fragmentsOf size (blanks ++ c :: rest) := by
  obtain ⟨first, more, rfl, hblank⟩ := beginsWithBlank_iff.1 hblanks
  have hword : wordsOf (first :: more ++ c :: rest) ≠ [] := by
    intro hnil
    have hletter := wordsOf_eq_nil.1 hnil c (by simp)
    rw [hc] at hletter
    exact absurd hletter nofun
  have hne : first :: more ++ c :: rest ≠ [] := nofun
  obtain ⟨piece, others, hpieces⟩ := List.exists_cons_of_ne_nil (pieces_ne_nil hne)
  have hgap : opensWithGap piece = true := by
    have hflatten := flatten_pieces (first :: more ++ c :: rest)
    have hlen := length_wordsOf_of_mem_pieces hword (hpieces ▸ List.mem_cons_self)
    rw [hpieces, List.flatten_cons] at hflatten
    refine opensWithGap_iff.2 ⟨⟨first, ?_, hblank⟩, ?_⟩
    · cases piece with
      | nil =>
        rw [wordsOf_nil] at hlen
        exact absurd hlen nofun
      | cons d piece =>
        rw [List.cons_append, List.cons_append] at hflatten
        rw [(List.cons.inj hflatten).1]
        rfl
    · rw [← List.length_pos_iff, hlen]
      exact Nat.one_pos
  have hlen : (pieces kept).length = max size 1 := by
    have hne : kept ≠ [] := by
      rintro rfl
      exact not_endsInWord_nil hkept
    rw [length_pieces hne, hwords, Nat.max_comm]
  rw [fragmentsOf, pieces_append hkept hpieces hgap, groupsOf_append hlen, List.map_cons,
    flatten_pieces]
  rfl

/-- **A word begins in a fragment that is full**: it is closed before the gap, and the word and the
gap before it open the next one. -/
theorem Pass.Holds.close (h : pass.Holds size seen) {c : Char} (hc : isBlank c = false)
    (hsize : 0 < size) (hout : pass.inWord = false) (hfull : pass.words = size) {more : List Char}
    (htext : text = seen ++ more) :
    Pass.Holds size (seen ++ [c])
      { pass.close text with inWord := true, words := (pass.close text).words + 1 } := by
  obtain ⟨kept, blanks, hopen, hkept, hblanks, hnone, hgap⟩ := h.gap_eq hout (by omega)
  have hseen : seen = seen.take pass.start ++ (kept ++ blanks) := by
    rw [← hopen, List.take_append_drop]
  have hstart : (seen.take pass.start).length = pass.start :=
    List.length_take_of_le h.start_le
  have hplace : (seen.take pass.start ++ kept).length = pass.start + kept.length := by
    rw [List.length_append, hstart]
  have hkeptWords : (wordsOf kept).length = size := by
    rw [← hfull, h.words_eq, hopen, wordsOf_append_gap kept hblanks, hnone, List.append_nil]
  have hnotWord : ¬ EndsInWord blanks := fun hends => hends.wordsOf_ne_nil hnone
  have hcut : (text.take (pass.start + kept.length)).drop pass.start = kept := by
    rw [htext, hseen, ← List.append_assoc (seen.take pass.start), List.append_assoc _ blanks,
      List.take_left' hplace, List.drop_left' hstart]
  have hrest : (seen ++ [c]).drop (pass.start + kept.length) = blanks ++ [c] := by
    have hwhole : seen ++ [c] = (seen.take pass.start ++ kept) ++ (blanks ++ [c]) := by
      rw [List.append_assoc, ← List.append_assoc kept, ← List.append_assoc, ← hseen]
    rw [hwhole, List.drop_left' hplace]
  rw [Pass.close, hgap]
  simp only [hcut]
  constructor
  case start_le =>
    have hlen := congrArg List.length hseen
    simp only [List.length_append, hstart] at hlen ⊢
    omega
  case words_eq => rw [hrest, wordsOf_append_letter hc hnotWord, hnone]; rfl
  case words_le => exact hsize
  case inWord_iff =>
    rw [hrest, endsInWord_append_singleton, hc]
    simp
  case gap_eq => exact fun hnot => absurd hnot nofun
  case closed_eq =>
    intro rest
    have hthis := fragmentsOf_cut hkept hkeptWords hblanks hc rest
    rw [h.closed_append, hopen, hrest, List.append_assoc (kept ++ blanks), List.append_assoc kept,
      List.singleton_append, hthis, List.append_assoc, List.append_assoc]
    rfl

/-- **One more character.** -/
theorem Pass.Holds.step (h : pass.Holds size seen) (hsize : 0 < size) {c : Char} {more : List Char}
    (htext : text = seen ++ more) :
    (pass.step size text c seen.length).Holds size (seen ++ [c]) := by
  rw [Pass.step]
  by_cases hc : isBlank c = true
  · rw [if_pos hc]
    exact h.blank hc
  · have hletter : isBlank c = false := Bool.eq_false_iff.2 hc
    rw [if_neg hc]
    by_cases hin : pass.inWord = true
    · rw [if_pos hin]
      exact h.letter hletter hin
    · have hout : pass.inWord = false := Bool.eq_false_iff.2 hin
      rw [if_neg hin]
      by_cases hfull : pass.words = size
      · simp only [if_pos hfull]
        exact h.close hletter hsize hout hfull htext
      · simp only [if_neg hfull]
        exact h.word hletter hout (Nat.lt_of_le_of_ne h.words_le hfull)

/-- **All characters read so far.** -/
theorem Pass.holds_run (hsize : 0 < size) (seen more : List Char) :
    (Pass.run size (seen ++ more) seen).Holds size seen := by
  suffices h : ∀ text more, text = seen ++ more → (Pass.run size text seen).Holds size seen from
    h _ more rfl
  induction seen using List.reverseRecOn with
  | nil => exact fun _ _ _ => Pass.holds_begin size
  | append_singleton seen c ih =>
    intro text more htext
    rw [List.append_assoc] at htext
    rw [Pass.run_append]
    exact (ih text _ htext).step hsize htext

/-! ## The end of the text -/

/-- A text that fits one fragment is one. -/
theorem fragmentsOf_of_le (hsize : 0 < size) {text : List Char} (hne : text ≠ [])
    (h : (wordsOf text).length ≤ size) : fragmentsOf size text = [text] := by
  have hlen : (pieces text).length ≤ max size 1 := by
    rw [length_pieces hne]
    omega
  rw [fragmentsOf, groupsOf_of_length_le (pieces_ne_nil hne) hlen, List.map_singleton,
    flatten_pieces]

theorem Pass.Holds.finish (h : pass.Holds size text) (hsize : 0 < size) :
    pass.finish text = fragmentsOf size text := by
  have hclosed := h.closed_eq []
  rw [List.append_nil, List.append_nil] at hclosed
  rw [Pass.finish, hclosed]
  by_cases hopen : pass.start < text.length
  · have hne : text.drop pass.start ≠ [] := by simpa using hopen
    rw [if_pos hopen, fragmentsOf_of_le hsize hne (h.words_eq ▸ h.words_le)]
  · have hnil : text.drop pass.start = [] := by simpa using hopen
    rw [if_neg hopen, hnil, fragmentsOf, pieces, List.foldr_nil, groupsOf_nil, List.map_nil,
      List.append_nil]

/-- **One pass finds the fragments.** -/
theorem passFragments_eq (size : Nat) (text : String) :
    passFragments size text = wordFragments size text := by
  have hsize : 0 < max size 1 := by omega
  have hrun := Pass.holds_run hsize text.toList []
  rw [List.append_nil] at hrun
  rw [passFragments, hrun.finish hsize, fragmentsOf_max, ofList_fragmentsOf]

end ScriptedChat.Text
