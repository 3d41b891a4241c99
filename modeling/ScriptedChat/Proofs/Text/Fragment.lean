import ScriptedChat.Text.Fragment

/-!
# Fragments lose nothing

Whatever the size of the fragments, the fragments of a text, put together
again, are the text.

* `flatten_groupsOf`, `flatten_pieces` — the two ways of cutting a list;
* `groupsOf_append`, `length_groupsOf` — every group is full but the last;
* `join_wordFragments`, `join_charFragments` — the texts put together again;
* `ne_empty_of_mem_wordFragments`, `ne_empty_of_mem_charFragments` — no fragment is empty;
* `foldlM_fragments` — a state that holds a text, after fragments of one.
-/

namespace ScriptedChat.Text

/-! ## Groups and pieces -/

theorem flatten_groupsOf {α : Type} (size : Nat) (xs : List α) :
    (groupsOf size xs).flatten = xs := by
  fun_induction groupsOf size xs with
  | case1 => rfl
  | case2 x xs ih =>
    rw [List.flatten_cons, ih, List.cons_append, List.take_append_drop]

theorem flatten_consPiece (c : Char) (parts : List (List Char)) :
    (consPiece c parts).flatten = c :: parts.flatten := by
  unfold consPiece
  split
  · rfl
  · split
    · rfl
    · rfl

theorem flatten_pieces (text : List Char) : (pieces text).flatten = text := by
  induction text with
  | nil => rfl
  | cons c text ih =>
    rw [pieces, List.foldr_cons, flatten_consPiece]
    exact congrArg (c :: ·) ih

/-! ## The sizes of groups -/

/-- A size of zero counts as one. -/
theorem groupsOf_max {α : Type} (size : Nat) (xs : List α) :
    groupsOf (max size 1) xs = groupsOf size xs := by
  have hsize : max size 1 - 1 = size - 1 := by omega
  fun_induction groupsOf size xs with
  | case1 => rw [groupsOf]
  | case2 x xs ih => rw [groupsOf, hsize, ih]

/-- A whole group in front is cut off as it is. -/
theorem groupsOf_append {α : Type} {size : Nat} {group : List α} (h : group.length = max size 1)
    (rest : List α) : groupsOf size (group ++ rest) = group :: groupsOf size rest := by
  cases group with
  | nil =>
    rw [List.length_nil] at h
    omega
  | cons x group =>
    have hlen : group.length = size - 1 := by
      rw [List.length_cons] at h
      omega
    rw [List.cons_append, groupsOf, List.take_left' hlen, List.drop_left' hlen]

/-- What fits one group is one. -/
theorem groupsOf_of_length_le {α : Type} {size : Nat} {group : List α} (hne : group ≠ [])
    (h : group.length ≤ max size 1) : groupsOf size group = [group] := by
  cases group with
  | nil => exact absurd rfl hne
  | cons x group =>
    have hlen : group.length ≤ size - 1 := by
      rw [List.length_cons] at h
      omega
    rw [groupsOf, List.take_of_length_le hlen, List.drop_of_length_le hlen, groupsOf]

/-- A list is one group at the end, or a whole group and more after it. -/
theorem groupsOf_cases {α : Type} (size : Nat) {xs : List α} (hne : xs ≠ []) :
    (xs.length ≤ max size 1 ∧ groupsOf size xs = [xs]) ∨
      ∃ group rest, xs = group ++ rest ∧ rest ≠ [] ∧ group.length = max size 1 ∧
        groupsOf size xs = group :: groupsOf size rest := by
  by_cases h : xs.length ≤ max size 1
  · exact .inl ⟨h, groupsOf_of_length_le hne h⟩
  · have hlen : (xs.take (max size 1)).length = max size 1 := by
      rw [List.length_take]
      omega
    have hcut := groupsOf_append hlen (xs.drop (max size 1))
    rw [List.take_append_drop] at hcut
    refine .inr ⟨xs.take (max size 1), xs.drop (max size 1), (List.take_append_drop _ _).symm, ?_,
      hlen, hcut⟩
    simpa using h

theorem groupsOf_nil {α : Type} (size : Nat) : groupsOf size ([] : List α) = [] := by
  rw [groupsOf]

theorem groupsOf_ne_nil {α : Type} (size : Nat) {xs : List α} (h : xs ≠ []) :
    groupsOf size xs ≠ [] := by
  intro hnil
  have hflatten := flatten_groupsOf size xs
  rw [hnil] at hflatten
  exact h hflatten.symm

/-- **Every group but the last is full**, the last one is not greater, and there
are as many as are needed. -/
theorem length_groupsOf {α : Type} (size : Nat) (xs : List α) :
    (∀ group ∈ (groupsOf size xs).dropLast, group.length = max size 1) ∧
      (∀ group ∈ groupsOf size xs, group.length ≤ max size 1) ∧
      (groupsOf size xs).length = (xs.length + max size 1 - 1) / max size 1 := by
  induction hn : xs.length using Nat.strongRecOn generalizing xs with
  | ind n ih =>
    by_cases hne : xs = []
    · subst hne
      have hzero : (n + max size 1 - 1) / max size 1 = 0 := by
        rw [← hn]
        exact Nat.div_eq_of_lt (by simp only [List.length_nil]; omega)
      simp [groupsOf_nil, hzero]
    · rcases groupsOf_cases size hne with ⟨hle, hone⟩ | ⟨group, rest, rfl, hrest, hlen, hmore⟩
      · have hpos : 0 < xs.length := List.length_pos_iff.2 hne
        have hcount : (n + max size 1 - 1) / max size 1 = 1 := by
          rw [Nat.div_eq_iff (by omega)]
          omega
        rw [hone, hcount]
        refine ⟨fun group hmem => absurd hmem List.not_mem_nil, fun group hmem => ?_, rfl⟩
        rw [List.mem_singleton.1 hmem]
        exact hle
      · rw [List.length_append, hlen] at hn
        obtain ⟨hfull, hle, hcount⟩ := ih rest.length (by omega) rest rfl
        have hdiv : (n + max size 1 - 1) / max size 1
            = (rest.length + max size 1 - 1) / max size 1 + 1 := by
          rw [← Nat.add_div_right _ (by omega : 0 < max size 1)]
          congr 1
          omega
        rw [hmore, List.dropLast_cons_of_ne_nil (groupsOf_ne_nil size hrest), List.length_cons,
          hcount, hdiv]
        exact ⟨List.forall_mem_cons.2 ⟨hlen, hfull⟩, List.forall_mem_cons.2 ⟨Nat.le_of_eq hlen, hle⟩,
          rfl⟩

/-! ## Texts put together again -/

/-- Texts that are written one after the other, as one list of characters. -/
theorem join_map_ofList (parts : List (List Char)) :
    String.join (parts.map String.ofList) = String.ofList parts.flatten := by
  induction parts with
  | nil => rfl
  | cons part parts ih =>
    rw [List.map_cons, String.join_cons, ih, List.flatten_cons, String.ofList_append]

theorem join_wordFragments (size : Nat) (text : String) :
    String.join (wordFragments size text) = text := by
  have hgroups : wordFragments size text =
      ((groupsOf size (pieces text.toList)).map List.flatten).map String.ofList := by
    rw [List.map_map]
    rfl
  rw [hgroups, join_map_ofList, ← List.flatten_flatten, flatten_groupsOf, flatten_pieces,
    String.ofList_toList]

theorem join_charFragments (size : Nat) (text : String) :
    String.join (charFragments size text) = text := by
  rw [charFragments, join_map_ofList, flatten_groupsOf, String.ofList_toList]

/-! ## No empty fragments -/

theorem ne_nil_of_mem_groupsOf {α : Type} {size : Nat} {xs group : List α}
    (h : group ∈ groupsOf size xs) : group ≠ [] ∧ ∀ x ∈ group, x ∈ xs := by
  fun_induction groupsOf size xs with
  | case1 => exact absurd h List.not_mem_nil
  | case2 x xs ih =>
    rcases List.mem_cons.1 h with rfl | h
    · refine ⟨List.cons_ne_nil _ _, fun y hy => ?_⟩
      rcases List.mem_cons.1 hy with rfl | hy
      · exact List.mem_cons_self
      · exact List.mem_cons_of_mem _ (List.mem_of_mem_take hy)
    · obtain ⟨hne, hmem⟩ := ih h
      exact ⟨hne, fun y hy => List.mem_cons_of_mem _ (List.mem_of_mem_drop (hmem y hy))⟩

theorem ne_nil_of_mem_consPiece {c : Char} {parts : List (List Char)}
    (hparts : ∀ part ∈ parts, part ≠ []) : ∀ part ∈ consPiece c parts, part ≠ [] := by
  intro part h
  unfold consPiece at h
  split at h
  · rw [List.mem_singleton.1 h]
    exact List.cons_ne_nil _ _
  · rename_i piece rest
    split at h
    · rcases List.mem_cons.1 h with rfl | h
      · exact List.cons_ne_nil _ _
      · exact hparts part h
    · rcases List.mem_cons.1 h with rfl | h
      · exact List.cons_ne_nil _ _
      · exact hparts part (List.mem_cons_of_mem _ h)

theorem ne_nil_of_mem_pieces (text : List Char) : ∀ piece ∈ pieces text, piece ≠ [] := by
  induction text with
  | nil => exact nofun
  | cons c text ih => exact ne_nil_of_mem_consPiece ih

theorem ofList_ne_empty {part : List Char} (h : part ≠ []) : String.ofList part ≠ "" :=
  fun hempty => h (by rw [← String.toList_ofList (l := part), hempty]; rfl)

theorem ne_empty_of_mem_wordFragments {size : Nat} {text fragment : String}
    (h : fragment ∈ wordFragments size text) : fragment ≠ "" := by
  obtain ⟨group, hgroup, rfl⟩ := List.mem_map.1 h
  obtain ⟨hne, hmem⟩ := ne_nil_of_mem_groupsOf hgroup
  refine ofList_ne_empty fun hflatten => ?_
  cases group with
  | nil => exact hne rfl
  | cons piece more =>
    have hpiece := ne_nil_of_mem_pieces text.toList piece (hmem piece List.mem_cons_self)
    exact hpiece (List.append_eq_nil_iff.1 hflatten).1

theorem ne_empty_of_mem_charFragments {size : Nat} {text fragment : String}
    (h : fragment ∈ charFragments size text) : fragment ≠ "" := by
  obtain ⟨group, hgroup, rfl⟩ := List.mem_map.1 h
  exact ofList_ne_empty (ne_nil_of_mem_groupsOf hgroup).1

/-- A text that is not empty has a fragment. -/
theorem wordFragments_ne_nil (size : Nat) {text : String} (h : text ≠ "") :
    wordFragments size text ≠ [] := by
  intro hnil
  rw [← join_wordFragments size text, hnil, String.join_nil] at h
  exact h rfl

/-! ## Texts that grow -/

/-- **Fragments one after the other.**  Where one fragment is appended to the
text that a state holds, all of them are. -/
theorem foldlM_fragments {σ : Type} (step : σ → String → Option σ) (holding : String → σ)
    (h : ∀ text fragment, step (holding text) fragment = some (holding (text ++ fragment)))
    (text : String) (fragments : List String) :
    fragments.foldlM step (holding text) = some (holding (text ++ String.join fragments)) := by
  induction fragments generalizing text with
  | nil =>
    rw [String.join_nil, String.append_empty]
    rfl
  | cons fragment fragments ih =>
    rw [List.foldlM_cons, h, Option.bind_eq_bind, Option.bind_some, ih, String.join_cons,
      String.append_assoc]

end ScriptedChat.Text
