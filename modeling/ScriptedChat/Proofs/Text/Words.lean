import Mathlib.Data.List.Chain
import ScriptedChat.Proofs.Text.Fragment

/-!
# The words of a text

Blanks part the words of a text.  A text is cut into pieces directly after its
words, so that no word is cut and every piece has a word of its own, unless the
text has none at all.

* `wordsOf` — the words of a text;
* `wordsOf_intercalate` — words put together with blanks, taken apart again;
* `wordsOf_flatten` — texts put together where a blank follows keep their words;
* `Parted`, `parted_pieces` — a piece ends with a word, and the next one begins
  with the gap after it;
* `length_wordsOf_of_mem_pieces`, `length_pieces` — one word a piece.
-/

namespace ScriptedChat.Text

/-! ## Words -/

/-- The words of a text: what stands between blanks. -/
def wordsOf (text : List Char) : List (List Char) :=
  (text.splitOnP isBlank).filter (! ·.isEmpty)

@[simp] theorem wordsOf_nil : wordsOf [] = [] := by
  simp [wordsOf, List.splitOnP_nil]

/-- **A blank parts words.** -/
theorem wordsOf_append_cons {c : Char} (h : isBlank c = true) (before after : List Char) :
    wordsOf (before ++ c :: after) = wordsOf before ++ wordsOf after := by
  rw [wordsOf, List.splitOnP_append_cons before after h, List.filter_append]
  rfl

theorem ne_nil_of_wordsOf {text : List Char} (h : wordsOf text ≠ []) : text ≠ [] := by
  rintro rfl
  exact h wordsOf_nil

theorem wordsOf_cons_blank {c : Char} (h : isBlank c = true) (text : List Char) :
    wordsOf (c :: text) = wordsOf text := by
  simpa using wordsOf_append_cons h [] text

/-- Letters in a row are one word. -/
theorem wordsOf_letters {word : List Char} (hne : word ≠ []) (h : ∀ c ∈ word, isBlank c = false) :
    wordsOf word = [word] := by
  have hsplit : word.splitOnP isBlank = [word] :=
    List.splitOnP_eq_singleton fun c hc => by simp [h c hc]
  simp [wordsOf, hsplit, hne]

theorem wordsOf_singleton {c : Char} (h : isBlank c = false) : wordsOf [c] = [[c]] :=
  wordsOf_letters (List.cons_ne_nil c []) fun _ hd => List.mem_singleton.1 hd ▸ h

/-- **Words with a blank between two of them are the words again.** -/
theorem wordsOf_intercalate {gap : Char} (hgap : isBlank gap = true) {words : List (List Char)}
    (h : ∀ word ∈ words, word ≠ [] ∧ ∀ c ∈ word, isBlank c = false) :
    wordsOf ([gap].intercalate words) = words := by
  induction words with
  | nil => simp
  | cons word words ih =>
    obtain ⟨⟨hne, hletters⟩, hwords⟩ := List.forall_mem_cons.1 h
    cases words with
    | nil => rw [List.intercalate_singleton, wordsOf_letters hne hletters]
    | cons next words =>
      rw [List.intercalate_cons_cons, List.append_assoc, List.singleton_append,
        wordsOf_append_cons hgap, ih hwords, wordsOf_letters hne hletters, List.singleton_append]

/-- A letter before a blank, or at the end, is a word. -/
theorem wordsOf_cons_of_gap {c : Char} (hc : isBlank c = false) {text : List Char}
    (h : ∀ d ∈ text.head?, isBlank d = true) : wordsOf (c :: text) = [c] :: wordsOf text := by
  cases text with
  | nil => rw [wordsOf_singleton hc, wordsOf_nil]
  | cons d text =>
    have hd : isBlank d = true := h d rfl
    have hcut := wordsOf_append_cons hd [c] text
    rw [List.singleton_append, wordsOf_singleton hc] at hcut
    rw [hcut, wordsOf_cons_blank hd, List.singleton_append]

/-- A letter before another one belongs to its word. -/
theorem length_wordsOf_cons_letter {c d : Char} (hc : isBlank c = false) (hd : isBlank d = false)
    (text : List Char) : (wordsOf (c :: d :: text)).length = (wordsOf (d :: text)).length := by
  obtain ⟨part, parts, hparts⟩ := List.exists_cons_of_ne_nil (List.splitOnP_ne_nil isBlank text)
  simp [wordsOf, List.splitOnP_cons_eq_if_modifyHead, hc, hd, hparts]

/-- Only a text of blanks has no words. -/
theorem wordsOf_eq_nil {text : List Char} : wordsOf text = [] ↔ ∀ c ∈ text, isBlank c = true := by
  induction text with
  | nil => simp
  | cons c text ih =>
    by_cases hc : isBlank c = true
    · simp [wordsOf_cons_blank hc, ih, hc]
    · have hletter : isBlank c = false := Bool.eq_false_iff.2 hc
      have hne : wordsOf (c :: text) ≠ [] := by
        cases text with
        | nil => simp [wordsOf_singleton hletter]
        | cons d text =>
          by_cases hd : isBlank d = true
          · have hgap : ∀ e ∈ (d :: text).head?, isBlank e = true := by simp [hd]
            simp [wordsOf_cons_of_gap hletter hgap]
          · have hword : wordsOf (d :: text) ≠ [] := fun hnil => hd (ih.1 hnil d List.mem_cons_self)
            have hlen := length_wordsOf_cons_letter hletter (Bool.eq_false_iff.2 hd) text
            rw [← List.length_pos_iff, hlen]
            exact List.length_pos_iff.2 hword
      simp [hne, hc]

/-! ## Gaps -/

/-- The last character of the text belongs to a word. -/
def EndsInWord (text : List Char) : Prop := ∃ c ∈ text.getLast?, isBlank c = false

theorem not_endsInWord_nil : ¬ EndsInWord [] := by
  simp [EndsInWord]

theorem endsInWord_singleton {c : Char} : EndsInWord [c] ↔ isBlank c = false := by
  simp [EndsInWord]

theorem endsInWord_append_singleton (text : List Char) {c : Char} :
    EndsInWord (text ++ [c]) ↔ isBlank c = false := by
  simp [EndsInWord]

/-- The text begins with a blank. -/
def BeginsWithBlank (text : List Char) : Prop := ∃ c ∈ text.head?, isBlank c = true

theorem beginsWithBlank_iff {text : List Char} :
    BeginsWithBlank text ↔ ∃ c rest, text = c :: rest ∧ isBlank c = true := by
  cases text with
  | nil => simp [BeginsWithBlank]
  | cons c text => simp [BeginsWithBlank]

theorem BeginsWithBlank.append {text : List Char} (h : BeginsWithBlank text) (more : List Char) :
    BeginsWithBlank (text ++ more) := by
  obtain ⟨c, rest, rfl, hblank⟩ := beginsWithBlank_iff.1 h
  exact ⟨c, rfl, hblank⟩

/-- A gap parts words. -/
theorem wordsOf_append_gap (before : List Char) {gap : List Char} (h : BeginsWithBlank gap) :
    wordsOf (before ++ gap) = wordsOf before ++ wordsOf gap := by
  obtain ⟨c, rest, rfl, hblank⟩ := beginsWithBlank_iff.1 h
  rw [wordsOf_append_cons hblank, wordsOf_cons_blank hblank]

theorem EndsInWord.wordsOf_ne_nil {text : List Char} (h : EndsInWord text) : wordsOf text ≠ [] := by
  intro hnil
  obtain ⟨c, hlast, hletter⟩ := h
  rw [wordsOf_eq_nil.1 hnil c (List.mem_of_mem_getLast? hlast)] at hletter
  exact absurd hletter nofun

theorem wordsOf_append_blank {c : Char} (h : isBlank c = true) (text : List Char) :
    wordsOf (text ++ [c]) = wordsOf text := by
  rw [wordsOf_append_cons h, wordsOf_nil, List.append_nil]

/-- A letter after a word goes on with it. -/
theorem length_wordsOf_append_letter {c : Char} (hc : isBlank c = false) {text : List Char}
    (h : EndsInWord text) : (wordsOf (text ++ [c])).length = (wordsOf text).length := by
  induction text with
  | nil => exact absurd h not_endsInWord_nil
  | cons first text ih =>
    cases text with
    | nil =>
      have hletter : isBlank first = false := endsInWord_singleton.1 h
      rw [List.singleton_append, length_wordsOf_cons_letter hletter hc, wordsOf_singleton hc,
        wordsOf_singleton hletter]
      rfl
    | cons next text =>
      have hmore := ih h
      rw [List.cons_append] at hmore ⊢
      by_cases hfirst : isBlank first = true
      · rw [wordsOf_cons_blank hfirst, wordsOf_cons_blank hfirst, List.cons_append, hmore]
      · have hletter : isBlank first = false := Bool.eq_false_iff.2 hfirst
        by_cases hnext : isBlank next = true
        · rw [wordsOf_cons_of_gap hletter (by simp [hnext]),
            wordsOf_cons_of_gap hletter (by simp [hnext]), List.cons_append, List.length_cons,
            List.length_cons, hmore]
        · have hsecond : isBlank next = false := Bool.eq_false_iff.2 hnext
          rw [List.cons_append, length_wordsOf_cons_letter hletter hsecond, hmore,
            length_wordsOf_cons_letter hletter hsecond]

/-- A letter that no word stands before is a new word. -/
theorem wordsOf_append_letter {c : Char} (hc : isBlank c = false) {text : List Char}
    (h : ¬ EndsInWord text) : wordsOf (text ++ [c]) = wordsOf text ++ [[c]] := by
  rcases List.eq_nil_or_concat text with rfl | ⟨init, last, rfl⟩
  · exact wordsOf_singleton hc
  · rw [List.concat_eq_append, endsInWord_append_singleton, Bool.not_eq_false] at h
    rw [List.concat_eq_append, List.append_assoc, List.singleton_append, wordsOf_append_cons h,
      wordsOf_singleton hc, wordsOf_append_blank h]

theorem opensWithGap_iff {text : List Char} :
    opensWithGap text = true ↔ BeginsWithBlank text ∧ wordsOf text ≠ [] := by
  have hhead : text.head?.any isBlank = true ↔ BeginsWithBlank text := by
    rw [Option.any_eq_true]
    rfl
  have hword : text.any (! isBlank ·) = true ↔ wordsOf text ≠ [] := by
    simp [wordsOf_eq_nil]
  rw [opensWithGap, Bool.and_eq_true, hhead, hword]

/-- Texts put together keep their words where each but the first begins with a blank. -/
theorem wordsOf_flatten {parts : List (List Char)}
    (h : parts.IsChain fun _ part => BeginsWithBlank part) :
    wordsOf parts.flatten = parts.flatMap wordsOf := by
  induction parts with
  | nil => rfl
  | cons part parts ih =>
    cases parts with
    | nil => simp
    | cons next parts =>
      obtain ⟨hnext, hrest⟩ := List.isChain_cons_cons.1 h
      have hgap : BeginsWithBlank (next :: parts).flatten := hnext.append parts.flatten
      rw [List.flatten_cons, wordsOf_append_gap part hgap, ih hrest]
      rfl

/-! ## Pieces -/

theorem pieces_ne_nil {text : List Char} (h : text ≠ []) : pieces text ≠ [] := by
  intro hnil
  rw [← flatten_pieces text, hnil] at h
  exact h rfl

/-- **A text can be cut directly after a word**, where a gap and a word follow. -/
theorem pieces_append {before : List Char} (h : EndsInWord before) {piece : List Char}
    {rest : List (List Char)} {after : List Char} (hafter : pieces after = piece :: rest)
    (hgap : opensWithGap piece = true) : pieces (before ++ after) = pieces before ++ pieces after := by
  induction before with
  | nil => exact absurd h not_endsInWord_nil
  | cons c before ih =>
    cases before with
    | nil =>
      have hletter : isBlank c = false := endsInWord_singleton.1 h
      simp only [pieces, List.cons_append, List.nil_append, List.foldr_cons, List.foldr_nil] at hafter ⊢
      simp [hafter, consPiece, hletter, hgap]
    | cons next before =>
      have hmore := ih h
      obtain ⟨first, more, hfirst⟩ :=
        List.exists_cons_of_ne_nil (pieces_ne_nil (List.cons_ne_nil next before))
      have hstep (text : List Char) : pieces (c :: text) = consPiece c (pieces text) := rfl
      rw [List.cons_append, hstep, hmore, hstep, hfirst, List.cons_append, consPiece, consPiece]
      split
      · rfl
      · rfl

/-- Every part ends with a word, and the next one begins with the gap after it. -/
def Parted (parts : List (List Char)) : Prop :=
  parts.IsChain fun part next => EndsInWord part ∧ opensWithGap next = true

theorem Parted.beginsWithBlank {parts : List (List Char)} (h : Parted parts) :
    parts.IsChain fun _ part => BeginsWithBlank part :=
  h.imp fun _ _ hcut => (opensWithGap_iff.1 hcut.2).1

theorem EndsInWord.cons {text : List Char} (c : Char) (h : EndsInWord text) :
    EndsInWord (c :: text) := by
  obtain ⟨last, hlast, hletter⟩ := h
  refine ⟨last, ?_, hletter⟩
  rw [Option.mem_def] at hlast
  rw [Option.mem_def, List.getLast?_cons, hlast, Option.getD_some]

/-- One more character leaves the gaps where they are, or begins a piece of its own. -/
theorem parted_consPiece (c : Char) {parts : List (List Char)} (h : Parted parts) :
    Parted (consPiece c parts) := by
  unfold consPiece
  split
  · exact List.isChain_singleton _
  · rename_i piece rest
    split
    · rename_i hcut
      simp only [Bool.and_eq_true, Bool.not_eq_eq_eq_not, Bool.not_true] at hcut
      exact List.isChain_cons_cons.2 ⟨⟨⟨c, rfl, hcut.1⟩, hcut.2⟩, h⟩
    · rw [Parted, List.isChain_cons] at h ⊢
      exact ⟨fun next hnext => ⟨(h.1 next hnext).1.cons c, (h.1 next hnext).2⟩, h.2⟩

/-- **Pieces are cut directly after words.** -/
theorem parted_pieces (text : List Char) : Parted (pieces text) := by
  induction text with
  | nil => exact List.isChain_nil
  | cons c text ih => exact parted_consPiece c ih

theorem length_wordsOf_of_mem_consPiece {c : Char} {parts : List (List Char)}
    (h : ∀ part ∈ parts, (wordsOf part).length ≤ 1) :
    ∀ part ∈ consPiece c parts, (wordsOf part).length ≤ 1 := by
  have hsingle : (wordsOf [c]).length ≤ 1 := by
    by_cases hc : isBlank c = true
    · simp [wordsOf_cons_blank hc]
    · simp [wordsOf_singleton (Bool.eq_false_iff.2 hc)]
  unfold consPiece
  split
  · simpa using hsingle
  · rename_i piece rest
    split
    · simpa [hsingle] using h
    · rename_i hcut
      have hpiece := h piece List.mem_cons_self
      have hlonger : (wordsOf (c :: piece)).length ≤ 1 := by
        by_cases hc : isBlank c = true
        · rw [wordsOf_cons_blank hc]
          exact hpiece
        · -- the piece goes on with the word of the letter, or has no word itself
          have hletter : isBlank c = false := Bool.eq_false_iff.2 hc
          rw [hletter, Bool.not_false, Bool.true_and, opensWithGap_iff, not_and, not_not] at hcut
          by_cases hblank : ∀ d ∈ piece.head?, isBlank d = true
          · have hnone : wordsOf piece = [] := by
              cases piece with
              | nil => exact wordsOf_nil
              | cons d piece => exact hcut ⟨d, rfl, hblank d rfl⟩
            simp [wordsOf_cons_of_gap hletter hblank, hnone]
          · simp only [not_forall] at hblank
            obtain ⟨d, hd, hnot⟩ := hblank
            obtain ⟨more, rfl⟩ := List.head?_eq_some_iff.1 hd
            rw [length_wordsOf_cons_letter hletter (Bool.eq_false_iff.2 hnot)]
            exact hpiece
      intro part hmem
      rcases List.mem_cons.1 hmem with rfl | hmem
      · exact hlonger
      · exact h part (List.mem_cons_of_mem _ hmem)

/-- No piece has two words. -/
theorem length_wordsOf_piece_le (text : List Char) :
    ∀ part ∈ pieces text, (wordsOf part).length ≤ 1 := by
  induction text with
  | nil => exact nofun
  | cons c text ih => exact length_wordsOf_of_mem_consPiece ih

/-- A part without a word has no parts beside it. -/
theorem Parted.eq_singleton {parts : List (List Char)} (h : Parted parts) {part : List Char}
    (hmem : part ∈ parts) (hnone : wordsOf part = []) : parts = [part] := by
  obtain ⟨before, after, rfl⟩ := List.append_of_mem hmem
  obtain ⟨-, hafter, hbefore⟩ := List.isChain_append.1 h
  have hfirst : before = [] := by
    by_contra hne
    have hcut := hbefore _ (List.getLast?_eq_some_getLast hne) part rfl
    exact (opensWithGap_iff.1 hcut.2).2 hnone
  have hlast : after = [] := by
    cases after with
    | nil => rfl
    | cons next after =>
      exact absurd hnone (List.isChain_cons_cons.1 hafter).1.1.wordsOf_ne_nil
  rw [hfirst, hlast, List.nil_append]

/-- A piece without a word is the whole text. -/
theorem eq_text_of_mem_pieces {text part : List Char} (hmem : part ∈ pieces text)
    (hnone : wordsOf part = []) : pieces text = [text] := by
  have hone := (parted_pieces text).eq_singleton hmem hnone
  have hflatten := flatten_pieces text
  rw [hone, List.flatten_singleton] at hflatten
  rw [hone, hflatten]

/-- **One word a piece**, in a text that has words. -/
theorem length_wordsOf_of_mem_pieces {text part : List Char} (h : wordsOf text ≠ [])
    (hmem : part ∈ pieces text) : (wordsOf part).length = 1 := by
  have hle := length_wordsOf_piece_le text part hmem
  have hpos : 0 < (wordsOf part).length := by
    refine List.length_pos_iff.2 fun hnone => h ?_
    have hwhole := eq_text_of_mem_pieces hmem hnone
    rw [hwhole] at hmem
    rw [← List.mem_singleton.1 hmem, hnone]
  omega

/-- The words of neighbouring pieces, put together again. -/
theorem length_wordsOf_flatten {text : List Char} (h : wordsOf text ≠ [])
    {parts : List (List Char)} (hparted : Parted parts) (hsub : ∀ part ∈ parts, part ∈ pieces text) :
    (wordsOf parts.flatten).length = parts.length := by
  have hones : parts.map (fun part => (wordsOf part).length) = parts.map fun _ => 1 :=
    List.map_congr_left fun part hmem => length_wordsOf_of_mem_pieces h (hsub part hmem)
  rw [wordsOf_flatten hparted.beginsWithBlank, List.length_flatMap, hones]
  simp

/-- There are as many pieces as words, and one where there are none. -/
theorem length_pieces {text : List Char} (h : text ≠ []) :
    (pieces text).length = max 1 (wordsOf text).length := by
  by_cases hnone : wordsOf text = []
  · obtain ⟨part, parts, hparts⟩ := List.exists_cons_of_ne_nil (pieces_ne_nil h)
    have hblank : wordsOf part = [] := by
      rw [wordsOf_eq_nil] at hnone ⊢
      intro c hc
      refine hnone c ?_
      rw [← flatten_pieces text, hparts]
      exact List.mem_append_left _ hc
    have hmem : part ∈ pieces text := hparts ▸ List.mem_cons_self
    simp [eq_text_of_mem_pieces hmem hblank, hnone]
  · have hlen := length_wordsOf_flatten hnone (parted_pieces text) fun _ hmem => hmem
    rw [flatten_pieces] at hlen
    have hpos := List.length_pos_iff.2 hnone
    omega

end ScriptedChat.Text
