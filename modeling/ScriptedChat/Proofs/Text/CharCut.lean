import Mathlib.Algebra.Order.Floor.Div
import Mathlib.Data.String.Basic
import ScriptedChat.Proofs.Text.Fragment

/-!
# Fragments of characters

A text is cut into fragments of a number of characters, however many bytes each
of them has.  The cut can be found in one pass over the bytes, which looks at the
places where characters begin and cuts nowhere else.

* `CharCut` — all but the last fragment are full, and the last one is not empty;
* `eq_charFragments` — there is only one such cut;
* `slice?` — the text between two places, if no character is broken there;
* `CharPass`, `finish_charPass` — the pass, and what comes of the rest of a text;
* `charFragments_cut` — the fragments of a text are the cut, and the pass finds
  them.
-/

namespace ScriptedChat.Text

/-- A text cut into fragments of `n` characters. -/
structure CharCut (n : Nat) (text : String) (fragments : List String) : Prop where
  joined : String.join fragments = text
  filled : ∀ fragment ∈ fragments, fragment ≠ ""
  full : ∀ fragment ∈ fragments.dropLast, fragment.length = n
  last_range : ∀ fragment ∈ fragments.getLast?, 1 ≤ fragment.length ∧ fragment.length ≤ n
  /-- there are as many fragments as the characters need -/
  count : fragments.length = text.length ⌈/⌉ n
  /-- the bytes of the first fragments end where a character does -/
  boundaries : ∀ k, String.Pos.Raw.IsValid text ⟨((fragments.take k).map String.utf8ByteSize).sum⟩

/-! ## The fragments are a cut -/

theorem length_charFragments (size : Nat) (text : String) :
    (charFragments size text).length = text.length ⌈/⌉ max size 1 := by
  rw [charFragments, List.length_map, (length_groupsOf size text.toList).2.2,
    Nat.ceilDiv_eq_add_pred_div, String.length_toList]

/-- The bytes of texts that are written one after the other. -/
theorem utf8ByteSize_join (parts : List String) :
    (String.join parts).utf8ByteSize = (parts.map String.utf8ByteSize).sum := by
  induction parts with
  | nil => rfl
  | cons part parts ih => rw [String.join_cons, String.utf8ByteSize_append, ih, List.map_cons,
      List.sum_cons]

theorem join_append (parts more : List String) :
    String.join (parts ++ more) = String.join parts ++ String.join more := by
  induction parts with
  | nil => rw [List.nil_append, String.join_nil, String.empty_append]
  | cons part parts ih => rw [List.cons_append, String.join_cons, String.join_cons, ih,
      String.append_assoc]

/-- The first of several texts end where a character ends. -/
theorem isValid_join (parts : List String) (k : Nat) :
    String.Pos.Raw.IsValid (String.join parts)
      ⟨((parts.take k).map String.utf8ByteSize).sum⟩ := by
  rw [String.Pos.Raw.isValid_iff_exists_append]
  refine ⟨String.join (parts.take k), String.join (parts.drop k), ?_, ?_⟩
  · rw [← join_append, List.take_append_drop]
  · rw [← utf8ByteSize_join]
    rfl

theorem charCut_charFragments (size : Nat) (text : String) :
    CharCut (max size 1) text (charFragments size text) := by
  obtain ⟨hfull, hle, -⟩ := length_groupsOf size text.toList
  have hjoined := join_charFragments size text
  refine ⟨hjoined, fun _ hmem => ne_empty_of_mem_charFragments hmem, ?_, ?_,
    length_charFragments size text, fun k => ?_⟩
  · intro fragment hmem
    rw [charFragments, ← List.map_dropLast] at hmem
    obtain ⟨group, hgroup, rfl⟩ := List.mem_map.1 hmem
    rw [String.length_ofList, hfull group hgroup]
  · intro fragment hlast
    obtain ⟨group, hgroup, rfl⟩ := List.mem_map.1 (List.mem_of_mem_getLast? hlast)
    rw [String.length_ofList]
    exact ⟨List.length_pos_iff.2 (ne_nil_of_mem_groupsOf hgroup).1, hle group hgroup⟩
  · have hvalid := isValid_join (charFragments size text) k
    rwa [hjoined] at hvalid

/-! ## There is no other cut -/

/-- Groups that are full but for the last one are cut off one after the other. -/
theorem groupsOf_flatten {α : Type} {size : Nat} {groups : List (List α)}
    (hfull : ∀ group ∈ groups.dropLast, group.length = max size 1)
    (hlast : ∀ group ∈ groups.getLast?, group ≠ [] ∧ group.length ≤ max size 1) :
    groupsOf size groups.flatten = groups := by
  induction groups with
  | nil => exact groupsOf_nil size
  | cons group groups ih =>
    cases groups with
    | nil =>
      obtain ⟨hne, hle⟩ := hlast group rfl
      rw [List.flatten_singleton, groupsOf_of_length_le hne hle]
    | cons next groups =>
      rw [List.dropLast_cons_of_ne_nil (List.cons_ne_nil _ _)] at hfull
      rw [List.getLast?_cons_cons] at hlast
      obtain ⟨hgroup, hrest⟩ := List.forall_mem_cons.1 hfull
      rw [List.flatten_cons, groupsOf_append hgroup, ih hrest hlast]

/-- **A text has one cut into fragments of a number of characters.** -/
theorem eq_charFragments {size : Nat} {text : String} {fragments : List String}
    (h : CharCut (max size 1) text fragments) : fragments = charFragments size text := by
  have htexts : (fragments.map String.toList).map String.ofList = fragments := by
    simp [List.map_map, Function.comp_def]
  have hflatten : (fragments.map String.toList).flatten = text.toList := by
    have hjoin := join_map_ofList (fragments.map String.toList)
    rw [htexts, h.joined] at hjoin
    rw [hjoin, String.toList_ofList]
  have hgroups : groupsOf size text.toList = fragments.map String.toList := by
    rw [← hflatten]
    refine groupsOf_flatten ?_ ?_
    · intro group hmem
      rw [← List.map_dropLast] at hmem
      obtain ⟨fragment, hfragment, rfl⟩ := List.mem_map.1 hmem
      rw [String.length_toList, h.full fragment hfragment]
    · intro group hmem
      rw [List.getLast?_map] at hmem
      obtain ⟨fragment, hfragment, rfl⟩ := Option.map_eq_some_iff.1 hmem
      obtain ⟨hpos, hle⟩ := h.last_range fragment hfragment
      rw [← String.length_toList] at hpos hle
      exact ⟨List.length_pos_iff.1 hpos, hle⟩
  rw [charFragments, hgroups, htexts]

/-! ## One pass over the bytes -/

/-- The characters of a text, each with the place of its first byte. -/
def placed : Nat → List Char → List (Nat × Char)
  | _, [] => []
  | place, c :: text => (place, c) :: placed (place + c.utf8Size) text

/-- The text between two places.  There is none where a place lies within a character. -/
def slice? (text : String) (first last : Nat) : Option String :=
  if String.Pos.Raw.IsValid text ⟨first⟩ ∧ String.Pos.Raw.IsValid text ⟨last⟩ ∧ first ≤ last then
    some (String.Pos.Raw.extract text ⟨first⟩ ⟨last⟩)
  else none

/-- What one pass over a text remembers. -/
structure CharPass where
  /-- the fragments that are closed -/
  closed : List String
  /-- the place where the open fragment begins -/
  start : Nat
  /-- the characters of the open fragment -/
  chars : Nat

/-- The pass after a character more, which begins at a place.  It closes a fragment that is full. -/
def CharPass.step? (size : Nat) (text : String) (pass : CharPass) (place : Nat) : Option CharPass :=
  if pass.chars = size then
    (slice? text pass.start place).map fun fragment =>
      { closed := pass.closed ++ [fragment], start := place, chars := 1 }
  else some { pass with chars := pass.chars + 1 }

/-- The pass after characters with their places. -/
def CharPass.run? (size : Nat) (text : String) (pass : CharPass) (rest : List (Nat × Char)) :
    Option CharPass :=
  rest.foldlM (fun pass (place, _) => pass.step? size text place) pass

/-- All fragments at the end of the text. -/
def CharPass.finish? (text : String) (pass : CharPass) : Option (List String) :=
  if pass.start < text.utf8ByteSize then
    (slice? text pass.start text.utf8ByteSize).map fun fragment => pass.closed ++ [fragment]
  else some pass.closed

/-- The text in fragments of `size` characters, found in one pass; a size of zero counts as one. -/
def passCharFragments? (size : Nat) (text : String) : Option (List String) :=
  (CharPass.run? (max size 1) text { closed := [], start := 0, chars := 0 }
    (placed 0 text.toList)).bind (CharPass.finish? text)

variable {size : Nat} {text : String} {before part after : List Char}

theorem isValid_of_append (h : text.toList = before ++ after) :
    String.Pos.Raw.IsValid text ⟨String.utf8Len before⟩ := by
  rw [String.Pos.Raw.isValid_iff_exists_append]
  refine ⟨String.ofList before, String.ofList after, ?_, ?_⟩
  · rw [← String.ofList_append, ← h, String.ofList_toList]
  · rw [String.Pos.Raw.ext_iff, String.byteIdx_rawEndPos, String.utf8ByteSize_ofList]

/-- Between two places where characters end there are whole characters. -/
theorem slice?_of_append (h : text.toList = before ++ part ++ after) :
    slice? text (String.utf8Len before) (String.utf8Len before + String.utf8Len part) =
      some (String.ofList part) := by
  have hfirst := isValid_of_append (h.trans (List.append_assoc before part after))
  have hlast := isValid_of_append h
  rw [String.utf8Len_append] at hlast
  rw [slice?, if_pos ⟨hfirst, hlast, Nat.le_add_right _ _⟩]
  have htext : text = String.ofList (before ++ part ++ after) := by
    rw [← h, String.ofList_toList]
  rw [htext, String.extract_of_valid]

/-- A fragment that is full is closed, and the next character begins another one. -/
theorem run?_of_full {c : Char} {rest : List Char} (h : text.toList = before ++ part ++ c :: rest)
    (hfull : part.length = size) (closed : List String) :
    CharPass.run? size text { closed, start := String.utf8Len before, chars := part.length }
        (placed (String.utf8Len before + String.utf8Len part) (c :: rest)) =
      CharPass.run? size text
        { closed := closed ++ [String.ofList part]
          start := String.utf8Len (before ++ part)
          chars := [c].length }
        (placed (String.utf8Len (before ++ part) + String.utf8Len [c]) rest) := by
  simp [placed, CharPass.run?, CharPass.step?, hfull, slice?_of_append h]

/-- A fragment that is not full takes the next character. -/
theorem run?_of_open {c : Char} {rest : List Char} (hopen : part.length ≠ size)
    (closed : List String) :
    CharPass.run? size text { closed, start := String.utf8Len before, chars := part.length }
        (placed (String.utf8Len before + String.utf8Len part) (c :: rest)) =
      CharPass.run? size text
        { closed, start := String.utf8Len before, chars := (part ++ [c]).length }
        (placed (String.utf8Len before + String.utf8Len (part ++ [c])) rest) := by
  simp [placed, CharPass.run?, CharPass.step?, hopen, Nat.add_assoc]

/-- At the end of the text the open fragment is closed, unless it has no characters. -/
theorem finish?_of_append (h : text.toList = before ++ part) (hle : part.length ≤ max size 1)
    (closed : List String) (chars : Nat) :
    CharPass.finish? text { closed, start := String.utf8Len before, chars } =
      some (closed ++ (groupsOf size part).map String.ofList) := by
  have hsize : text.utf8ByteSize = String.utf8Len before + String.utf8Len part := by
    rw [← String.utf8Len_append, ← h, ← String.utf8ByteSize_ofList, String.ofList_toList]
  rw [CharPass.finish?, hsize]
  by_cases hnil : part = []
  · subst hnil
    rw [if_neg (by simp), groupsOf_nil, List.map_nil, List.append_nil]
  · have hpos : 0 < String.utf8Len part :=
      Nat.pos_of_ne_zero fun hzero => hnil (String.utf8Len_eq_zero.1 hzero)
    have hslice := slice?_of_append (h.trans (List.append_nil _).symm)
    rw [if_pos (Nat.lt_add_of_pos_right hpos), hslice, groupsOf_of_length_le hnil hle]
    rfl

/-- **The pass over the rest of a text**, by induction on the rest: the open fragment and the rest
are cut as they are when nothing has been closed before them. -/
theorem finish_charPass (rest : List Char) :
    ∀ (before part : List Char) (closed : List String), text.toList = before ++ part ++ rest →
      part.length ≤ max size 1 →
      (CharPass.run? (max size 1) text
          { closed, start := String.utf8Len before, chars := part.length }
          (placed (String.utf8Len before + String.utf8Len part) rest)).bind
        (CharPass.finish? text) =
      some (closed ++ (groupsOf size (part ++ rest)).map String.ofList) := by
  induction rest with
  | nil =>
    intro before part closed htext hle
    rw [List.append_nil] at htext ⊢
    exact finish?_of_append htext hle closed part.length
  | cons c rest ih =>
    intro before part closed htext hle
    by_cases hfull : part.length = max size 1
    · rw [run?_of_full htext hfull, groupsOf_append hfull]
      have hnext := ih (before ++ part) [c] (closed ++ [String.ofList part])
        (by rw [htext]; simp) (Nat.le_max_right size 1)
      rw [hnext]
      simp
    · rw [run?_of_open hfull]
      have hnext := ih before (part ++ [c]) closed (by rw [htext]; simp) (by
        rw [List.length_append, List.length_singleton]
        omega)
      rw [hnext]
      simp

/-- **The fragments of a text.**  Put together they are the text; none is empty; all but the last
have `size` characters, and the last one has not more, so that there are as many as the characters
need; and each ends where a character ends, of however many bytes that is.  No other fragments are
like this.  One pass over the bytes of the text finds them, and breaks no character. -/
theorem charFragments_cut (size : Nat) (text : String) :
    (∀ fragments, CharCut (max size 1) text fragments ↔ fragments = charFragments size text) ∧
      passCharFragments? size text = some (charFragments size text) := by
  refine ⟨fun fragments => ⟨eq_charFragments, ?_⟩, ?_⟩
  · rintro rfl
    exact charCut_charFragments size text
  · exact finish_charPass text.toList [] [] [] rfl (Nat.zero_le _)

example : charFragments 2 "aé€𝄞z" = ["aé", "€𝄞", "z"] := by decide +kernel

end ScriptedChat.Text
