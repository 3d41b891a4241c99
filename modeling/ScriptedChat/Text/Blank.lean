/-!
# Blanks and trimming

A *blank* is a character with the Unicode property `White_Space`: 25 code points in ten ranges.
Words are separated by blanks, and trimming removes blanks from the ends of a text.

* `isBlank`: the property, as ranges of code points.
* `trimStart`, `trimEnd`, `trim`: the text without its leading blanks, its trailing blanks, or both.
-/

namespace ScriptedChat.Text

/-- The property `White_Space`. -/
def isBlank (c : Char) : Bool :=
  let n := c.toNat
  (0x09 ≤ n && n ≤ 0x0D) || n == 0x20 || n == 0x85 || n == 0xA0 || n == 0x1680
    || (0x2000 ≤ n && n ≤ 0x200A) || n == 0x2028 || n == 0x2029 || n == 0x202F
    || n == 0x205F || n == 0x3000

/-- The text from its first character that is not blank. -/
def trimStart (text : List Char) : List Char :=
  text.dropWhile isBlank

/-- The text up to its last character that is not blank. -/
def trimEnd (text : List Char) : List Char :=
  (text.reverse.dropWhile isBlank).reverse

/-- The text between its first and its last character that is not blank. -/
def trim (text : List Char) : List Char :=
  trimEnd (trimStart text)

end ScriptedChat.Text
