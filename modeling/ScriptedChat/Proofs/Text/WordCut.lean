import ScriptedChat.Proofs.Text.Pass

/-!
# Fragments of words

What a client can rely on when a text comes in fragments of words: every
fragment but the last has the same number of words, no word is cut, and no
fragment consists of blanks beside another one.

* `WordCut` — all of that, told without the way in which the fragments are found;
* `isChain_groups` — fragments begin where pieces begin;
* `length_wordsOf_group` — a fragment has as many words as pieces;
* `wordFragments_cut` — the fragments of a text are such a cut, and one pass over
  the text finds them.
-/

namespace ScriptedChat.Text

/-- The number of words of a text. -/
def wordCount (text : String) : Nat :=
  (wordsOf text.toList).length

/-- A text cut into fragments of `n` words. -/
structure WordCut (n : Nat) (text : String) (fragments : List String) : Prop where
  joined : String.join fragments = text
  filled : ∀ fragment ∈ fragments, fragment ≠ ""
  empty_iff : fragments = [] ↔ text = ""
  full : ∀ fragment ∈ fragments.dropLast, wordCount fragment = n
  last_le : ∀ fragment ∈ fragments.getLast?, wordCount fragment ≤ n
  /-- there are as many fragments as the words need, and one where there are no words -/
  count : text ≠ "" → fragments.length = max 1 ((wordCount text + n - 1) / n)
  /-- a fragment begins with the gap after a word, and has words itself -/
  gaps : fragments.IsChain fun before after =>
    EndsInWord before.toList ∧ BeginsWithBlank after.toList ∧ 0 < wordCount after
  words : wordsOf text.toList = fragments.flatMap fun fragment => wordsOf fragment.toList
  /-- a fragment without words is the only one -/
  alone : ∀ fragment ∈ fragments, wordCount fragment = 0 → fragments = [fragment]

/-! ## Groups of pieces -/

theorem endsInWord_flatten {parts : List (List Char)} {last : List Char}
    (hlast : last ∈ parts.getLast?) (h : EndsInWord last) : EndsInWord parts.flatten := by
  obtain ⟨init, rfl⟩ := List.getLast?_eq_some_iff.1 hlast
  obtain ⟨c, hc, hletter⟩ := h
  refine ⟨c, ?_, hletter⟩
  rw [Option.mem_def] at hc
  rw [Option.mem_def, List.flatten_append, List.flatten_singleton, List.getLast?_append, hc]
  rfl

/-- A text that begins with a gap and goes on does so too. -/
theorem opensWithGap_append {text : List Char} (h : opensWithGap text = true) (more : List Char) :
    opensWithGap (text ++ more) = true := by
  obtain ⟨hblank, hwords⟩ := opensWithGap_iff.1 h
  refine opensWithGap_iff.2 ⟨hblank.append more, fun hnil => hwords ?_⟩
  rw [wordsOf_eq_nil] at hnil ⊢
  exact fun d hd => hnil d (List.mem_append_left _ hd)

/-- **Fragments begin where pieces begin.** -/
theorem isChain_groups {groups : List (List (List Char))} (hne : ∀ group ∈ groups, group ≠ [])
    (h : Parted groups.flatten) :
    (∀ group ∈ groups, Parted group) ∧ Parted (groups.map List.flatten) := by
  obtain ⟨hgroups, hchain⟩ := (List.isChain_flatten fun hnil => hne [] hnil rfl).1 h
  refine ⟨hgroups, ?_⟩
  rw [Parted, List.isChain_map]
  refine hchain.imp_of_mem_imp fun group next hgroup hnext hcut => ?_
  have hlast := List.getLast?_eq_some_getLast (hne group hgroup)
  obtain ⟨first, more, rfl⟩ := List.exists_cons_of_ne_nil (hne next hnext)
  obtain ⟨hends, hopens⟩ := hcut _ hlast first rfl
  exact ⟨endsInWord_flatten hlast hends, opensWithGap_append hopens _⟩

theorem parted_fragmentsOf (size : Nat) (text : List Char) : Parted (fragmentsOf size text) := by
  have hparted := parted_pieces text
  rw [← flatten_groupsOf size (pieces text)] at hparted
  exact (isChain_groups (fun _ hmem => (ne_nil_of_mem_groupsOf hmem).1) hparted).2

theorem flatten_fragmentsOf (size : Nat) (text : List Char) :
    (fragmentsOf size text).flatten = text := by
  rw [fragmentsOf, ← List.flatten_flatten, flatten_groupsOf, flatten_pieces]

/-- **The words of a text are those of its fragments.** -/
theorem wordsOf_fragmentsOf (size : Nat) (text : List Char) :
    wordsOf text = (fragmentsOf size text).flatMap wordsOf := by
  rw [← wordsOf_flatten (parted_fragmentsOf size text).beginsWithBlank, flatten_fragmentsOf]

/-- A fragment has as many words as pieces. -/
theorem length_wordsOf_group {size : Nat} {text : List Char} (h : wordsOf text ≠ [])
    {group : List (List Char)} (hmem : group ∈ groupsOf size (pieces text)) :
    (wordsOf group.flatten).length = group.length := by
  have hparted := parted_pieces text
  rw [← flatten_groupsOf size (pieces text)] at hparted
  have hgroups := (isChain_groups (fun _ hgroup => (ne_nil_of_mem_groupsOf hgroup).1) hparted).1
  exact length_wordsOf_flatten h (hgroups group hmem) (ne_nil_of_mem_groupsOf hmem).2

/-! ## The number of words in a fragment -/

/-- **Every fragment but the last is full**, the last one is not greater, and there are as many as
the words need. -/
theorem length_fragmentsOf (size : Nat) {text : List Char} (h : wordsOf text ≠ []) :
    (∀ fragment ∈ (fragmentsOf size text).dropLast, (wordsOf fragment).length = max size 1) ∧
      (∀ fragment ∈ fragmentsOf size text,
        0 < (wordsOf fragment).length ∧ (wordsOf fragment).length ≤ max size 1) ∧
      (fragmentsOf size text).length = ((wordsOf text).length + max size 1 - 1) / max size 1 := by
  obtain ⟨hfull, hle, hcount⟩ := length_groupsOf size (pieces text)
  have hpos := List.length_pos_iff.2 h
  have hpieces : (pieces text).length = (wordsOf text).length := by
    rw [length_pieces (ne_nil_of_wordsOf h)]
    omega
  refine ⟨?_, ?_, ?_⟩
  · intro fragment hmem
    rw [fragmentsOf, ← List.map_dropLast] at hmem
    obtain ⟨group, hgroup, rfl⟩ := List.mem_map.1 hmem
    rw [length_wordsOf_group h ((List.dropLast_sublist _).subset hgroup), hfull group hgroup]
  · intro fragment hmem
    obtain ⟨group, hgroup, rfl⟩ := List.mem_map.1 hmem
    rw [length_wordsOf_group h hgroup]
    exact ⟨List.length_pos_iff.2 (ne_nil_of_mem_groupsOf hgroup).1, hle group hgroup⟩
  · rw [fragmentsOf, List.length_map, hcount, hpieces]

/-- A text of blanks is one fragment. -/
theorem fragmentsOf_blank (size : Nat) {text : List Char} (hne : text ≠ [])
    (h : wordsOf text = []) : fragmentsOf size text = [text] := by
  have hsize : 0 < max size 1 := by omega
  have hone := fragmentsOf_of_le hsize hne (by rw [h]; exact Nat.zero_le _)
  rwa [fragmentsOf_max] at hone

/-- As many groups as words need, told for texts with and without words. -/
theorem max_one_div (words : Nat) {n : Nat} (hn : 0 < n) :
    max 1 ((words + n - 1) / n) = if words = 0 then 1 else (words + n - 1) / n := by
  by_cases h : words = 0
  · have hzero : (n - 1) / n = 0 := Nat.div_eq_of_lt (by omega)
    simp [h, hzero]
  · have hpos : 1 ≤ (words + n - 1) / n := (Nat.one_le_div_iff hn).2 (by omega)
    rw [if_neg h]
    omega

/-! ## The cut -/

theorem wordCount_ofList (fragment : List Char) :
    wordCount (String.ofList fragment) = (wordsOf fragment).length := by
  rw [wordCount, String.toList_ofList]

/-- The empty text has no fragments. -/
theorem wordCut_nil (n : Nat) : WordCut n "" [] where
  joined := rfl
  filled := nofun
  empty_iff := by simp
  full := nofun
  last_le := nofun
  count := fun h => absurd rfl h
  gaps := List.isChain_nil
  words := by simp
  alone := nofun

/-- A text of blanks is its only fragment. -/
theorem wordCut_blank {n : Nat} (hn : 0 < n) {text : String} (hne : text ≠ "")
    (h : wordCount text = 0) : WordCut n text [text] where
  joined := by simp
  filled := by simpa using hne
  empty_iff := by simpa using hne
  full := nofun
  last_le := by simp [h]
  count := by
    intro _
    rw [max_one_div _ hn, if_pos h]
    rfl
  gaps := List.isChain_singleton _
  words := by simp
  alone := by simp

/-- A text with words. -/
theorem wordCut_words (size : Nat) {text : String} (h : 0 < wordCount text) :
    WordCut (max size 1) text ((fragmentsOf size text.toList).map String.ofList) := by
  have hwords : wordsOf text.toList ≠ [] := List.length_pos_iff.1 h
  have hne : text.toList ≠ [] := ne_nil_of_wordsOf hwords
  obtain ⟨hfull, hle, hcount⟩ := length_fragmentsOf size hwords
  constructor
  case joined =>
    rw [ofList_fragmentsOf]
    exact join_wordFragments size text
  case filled =>
    rw [ofList_fragmentsOf]
    exact fun fragment hmem => ne_empty_of_mem_wordFragments hmem
  case empty_iff =>
    have hsome : fragmentsOf size text.toList ≠ [] := by
      intro hnil
      have hflatten := flatten_fragmentsOf size text.toList
      rw [hnil] at hflatten
      exact hne hflatten.symm
    have htext : text ≠ "" := fun hempty => hne (String.toList_eq_nil_iff.2 hempty)
    simp [hsome, htext]
  case full =>
    intro fragment hmem
    rw [← List.map_dropLast] at hmem
    obtain ⟨part, hpart, rfl⟩ := List.mem_map.1 hmem
    rw [wordCount_ofList, hfull part hpart]
  case last_le =>
    intro fragment hmem
    obtain ⟨part, hpart, rfl⟩ := List.mem_map.1 (List.mem_of_mem_getLast? hmem)
    rw [wordCount_ofList]
    exact (hle part hpart).2
  case count =>
    intro _
    rw [max_one_div _ (by omega), if_neg (Nat.ne_of_gt h), List.length_map, hcount]
    rfl
  case gaps =>
    rw [List.isChain_map]
    refine (parted_fragmentsOf size text.toList).imp fun before after hcut => ?_
    obtain ⟨hblank, hword⟩ := opensWithGap_iff.1 hcut.2
    rw [wordCount_ofList, String.toList_ofList, String.toList_ofList]
    exact ⟨hcut.1, hblank, List.length_pos_iff.2 hword⟩
  case words =>
    rw [List.flatMap_map]
    simp only [String.toList_ofList]
    exact wordsOf_fragmentsOf size text.toList
  case alone =>
    intro fragment hmem hnone
    obtain ⟨part, hpart, rfl⟩ := List.mem_map.1 hmem
    rw [wordCount_ofList] at hnone
    exact absurd hnone (Nat.ne_of_gt (hle part hpart).1)

/-- **The fragments of a text.**  Put together they are the text; none is empty, and there is none
only where the text is; all but the last have `size` words, and the last one has not more, so that
there are as many as the words need; each after the first begins with the blanks directly after a
word and has words itself; hence no word is cut, and blanks stand alone only where the text has
nothing else.  One pass over the text finds these fragments. -/
theorem wordFragments_cut (size : Nat) (text : String) :
    WordCut (max size 1) text (wordFragments size text) ∧
      passFragments size text = wordFragments size text := by
  refine ⟨?_, passFragments_eq size text⟩
  rw [← ofList_fragmentsOf]
  by_cases hwords : wordCount text = 0
  · by_cases hne : text = ""
    · subst hne
      have hnil : fragmentsOf size "".toList = [] := by
        rw [fragmentsOf, String.toList_empty, pieces, List.foldr_nil, groupsOf_nil, List.map_nil]
      rw [hnil]
      exact wordCut_nil _
    · have hchars : text.toList ≠ [] := mt String.toList_eq_nil_iff.1 hne
      have hone := fragmentsOf_blank size hchars (List.length_eq_zero_iff.1 hwords)
      rw [hone, List.map_singleton, String.ofList_toList]
      exact wordCut_blank (by omega) hne hwords
  · exact wordCut_words size (Nat.pos_of_ne_zero hwords)

example : wordFragments 2 " one two\n three  " = [" one two", "\n three  "] := by decide +kernel

end ScriptedChat.Text
