import Mathlib.Data.List.DropRight
import ScriptedChat.Text.Blank

/-!
# Trimming

* `mem_of_mem_trim` — trimming adds nothing;
* `trim_trim`, `isBlank_getLast_of_trim` — a trimmed text has no blank at its ends;
* `exists_around_trim` — trimming removes blanks and nothing else;
* `trim_between` — a text between blanks, if it has none at its ends.
-/

namespace ScriptedChat.Text

theorem mem_of_mem_trim {c : Char} {text : List Char} (h : c ∈ trim text) : c ∈ text := by
  have hstart : c ∈ trimStart text := (List.rdropWhile_prefix isBlank _).subset h
  exact (List.dropWhile_sublist isBlank).subset hstart

/-- A text that begins with no blank keeps its beginning. -/
theorem trimStart_of_head {text : List Char} (h : ∀ c ∈ text.head?, isBlank c = false) :
    trimStart text = text := by
  cases text with
  | nil => rfl
  | cons c text =>
    rw [trimStart, List.dropWhile_cons_of_neg]
    simpa using h c rfl

theorem isBlank_head_trimStart (text : List Char) :
    ∀ c ∈ (trimStart text).head?, isBlank c = false := by
  induction text with
  | nil => exact nofun
  | cons c text ih =>
    intro first hfirst
    by_cases h : isBlank c = true
    · rw [trimStart, List.dropWhile_cons_of_pos h] at hfirst
      exact ih first hfirst
    · rw [trimStart, List.dropWhile_cons_of_neg h] at hfirst
      cases hfirst
      exact Bool.eq_false_iff.2 h

theorem trim_trim (text : List Char) : trim (trim text) = trim text := by
  have hhead : ∀ c ∈ (trim text).head?, isBlank c = false := by
    intro c hc
    obtain ⟨rest, hrest⟩ := List.rdropWhile_prefix isBlank (trimStart text)
    refine isBlank_head_trimStart text c ?_
    rw [← hrest]
    cases hkept : List.rdropWhile isBlank (trimStart text) with
    | nil =>
      rw [show trim text = [] from hkept] at hc
      exact absurd hc nofun
    | cons first kept =>
      rw [show trim text = first :: kept from hkept] at hc
      exact hc
  calc trim (trim text) = trimEnd (trim text) := by rw [trim, trimStart_of_head hhead]
    _ = trim text := List.rdropWhile_idempotent isBlank (trimStart text)

theorem isBlank_getLast_of_trim {text : List Char} (h : trim text = text) :
    ∀ c ∈ text.getLast?, isBlank c = false := by
  have hend : List.rdropWhile isBlank text = text :=
    calc List.rdropWhile isBlank text = List.rdropWhile isBlank (trim text) := by rw [h]
      _ = trim text := List.rdropWhile_idempotent isBlank (trimStart text)
      _ = text := h
  intro c hc
  have hne : text ≠ [] := by
    rintro rfl
    exact absurd hc nofun
  rw [List.getLast?_eq_some_getLast hne] at hc
  cases hc
  exact Bool.eq_false_iff.2 (List.rdropWhile_eq_self_iff.1 hend hne)

/-! ## Blanks around a text -/

/-- Blanks in a row, perhaps none. -/
def Blanks (text : List Char) : Prop :=
  ∀ c ∈ text, isBlank c = true

instance (text : List Char) : Decidable (Blanks text) :=
  List.decidableBAll (fun c => isBlank c = true) text

theorem Blanks.nil : Blanks [] := nofun

theorem Blanks.append {text other : List Char} (h : Blanks text) (hother : Blanks other) :
    Blanks (text ++ other) := by
  intro c hc
  rcases List.mem_append.1 hc with hc | hc
  · exact h c hc
  · exact hother c hc

/-- No blank stands at the beginning or at the end of a text. -/
structure Bare (text : List Char) : Prop where
  head : ∀ c ∈ text.head?, isBlank c = false
  last : ∀ c ∈ text.getLast?, isBlank c = false

theorem trimStart_append {front : List Char} (h : Blanks front) (text : List Char) :
    trimStart (front ++ text) = trimStart text :=
  List.dropWhile_append_of_pos h

theorem trimEnd_append (text : List Char) {back : List Char} (h : Blanks back) :
    trimEnd (text ++ back) = trimEnd text := by
  rw [trimEnd, List.reverse_append,
    List.dropWhile_append_of_pos fun c hc => h c (List.mem_reverse.1 hc)]
  rfl

/-- A text that ends with no blank keeps its end. -/
theorem trimEnd_of_last {text : List Char} (h : ∀ c ∈ text.getLast?, isBlank c = false) :
    trimEnd text = text := by
  have hreverse : trimStart text.reverse = text.reverse :=
    trimStart_of_head (by rwa [List.head?_reverse])
  exact (congrArg List.reverse hreverse).trans text.reverse_reverse

theorem trim_of_bare {text : List Char} (h : Bare text) : trim text = text := by
  rw [trim, trimStart_of_head h.head, trimEnd_of_last h.last]

/-- Trimming removes blanks around a text and nothing else. -/
theorem exists_around_trim (text : List Char) :
    ∃ front back, Blanks front ∧ Blanks back ∧ text = front ++ (trim text ++ back) := by
  let front := text.takeWhile isBlank
  let back := ((trimStart text).reverse.takeWhile isBlank).reverse
  have hstart : front ++ trimStart text = text := List.takeWhile_append_dropWhile
  have hend : trim text ++ back = trimStart text := by
    rw [trim, trimEnd, ← List.reverse_append, List.takeWhile_append_dropWhile, List.reverse_reverse]
  refine ⟨front, back, fun c hc => ?_, fun c hc => ?_, ?_⟩
  · exact List.mem_takeWhile_imp hc
  · exact List.mem_takeWhile_imp (List.mem_reverse.1 hc)
  · rw [hend, hstart]

/-- **Blanks around a text do not count.** -/
theorem trim_between {front text back : List Char} (hfront : Blanks front) (hback : Blanks back)
    (htext : Bare text) (hne : text ≠ []) : trim (front ++ (text ++ back)) = text := by
  have hhead : ∀ c ∈ (text ++ back).head?, isBlank c = false := by
    rw [List.head?_append_of_ne_nil _ hne]
    exact htext.head
  rw [trim, trimStart_append hfront, trimStart_of_head hhead, trimEnd_append _ hback,
    trimEnd_of_last htext.last]

end ScriptedChat.Text
