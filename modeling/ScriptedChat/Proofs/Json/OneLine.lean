import ScriptedChat.Json.Printer
import ScriptedChat.Proofs.Binary64.Decimal

/-!
# Compact text is one line

No value is written with a line feed, whatever its texts are.  Inside a string
a line feed is escaped, and nothing else that is written has one.

What is proved here:

* `newline_not_mem_numberChars` — numbers, floating-point numbers among them;
* `newline_not_mem_quote` — strings;
* `newline_not_mem_chars` — values, along the printer's own recursion.
-/

namespace ScriptedChat

namespace Json

/-! ## Numbers and strings -/

theorem newline_not_mem_decimalInt (n : Int) : '\n' ∉ Text.decimalInt n := by
  cases n with
  | ofNat n => exact Text.not_mem_decimal (by decide) n
  | negSucc n =>
    simp only [Text.decimalInt, List.mem_cons, not_or]
    exact ⟨by decide, Text.not_mem_decimal (by decide) _⟩

/-- A floating-point number is written with characters that are no blanks. -/
theorem newline_not_mem_numberChars (n : Number) : '\n' ∉ numberChars n := by
  cases n with
  | int n => exact newline_not_mem_decimalInt n
  | real x =>
    intro hmem
    have hblank := Binary64.isBlank_of_isMark (Binary64.isMark_of_render realLayout x _ hmem)
    exact absurd hblank (by decide)

theorem newline_ne_hexChar : ∀ d < 16, '\n' ≠ hexChar d := by
  decide

/-- An escaped character has no line feed; the line feed itself is written with two others. -/
theorem newline_not_mem_escape (c : Char) : '\n' ∉ escape c := by
  unfold escape
  split
  · decide
  split
  · decide
  split
  · decide
  rename_i hline
  split
  · decide
  split
  · decide
  split
  · decide
  split
  · decide
  split
  · simp only [List.mem_cons, List.not_mem_nil, or_false, not_or]
    exact ⟨by decide, by decide, by decide, by decide, newline_ne_hexChar _ (by omega),
      newline_ne_hexChar _ (by omega)⟩
  · exact fun hmem => hline (List.mem_singleton.1 hmem).symm

theorem newline_not_mem_quote (text : String) : '\n' ∉ quote text := by
  have hescaped : '\n' ∉ text.toList.flatMap escape := by
    intro hmem
    obtain ⟨c, _, hc⟩ := List.mem_flatMap.1 hmem
    exact newline_not_mem_escape c hc
  simp [quote, hescaped]

/-! ## Values -/

mutual

/-- **No value is written with a line feed.** -/
theorem newline_not_mem_chars : ∀ value : Json, '\n' ∉ chars value
  | .null => by decide
  | .bool true => by decide
  | .bool false => by decide
  | .num n => newline_not_mem_numberChars n
  | .str text => newline_not_mem_quote text
  | .arr [] => by decide
  | .arr (v :: items) => by
    simp [chars, newline_not_mem_chars v, newline_not_mem_itemsChars items]
  | .obj [] => by decide
  | .obj ((k, v) :: fields) => by
    simp [chars, newline_not_mem_quote k, newline_not_mem_chars v,
      newline_not_mem_fieldsChars fields]

theorem newline_not_mem_itemsChars : ∀ items : List Json, '\n' ∉ itemsChars items
  | [] => by decide
  | v :: items => by
    simp [itemsChars, newline_not_mem_chars v, newline_not_mem_itemsChars items]

theorem newline_not_mem_fieldsChars : ∀ fields : List (String × Json), '\n' ∉ fieldsChars fields
  | [] => by decide
  | (k, v) :: fields => by
    simp [fieldsChars, newline_not_mem_quote k, newline_not_mem_chars v,
      newline_not_mem_fieldsChars fields]

end

theorem newline_not_mem_compact (value : Json) : '\n' ∉ value.compact.toList := by
  rw [compact, String.toList_ofList]
  exact newline_not_mem_chars value

end Json

end ScriptedChat
