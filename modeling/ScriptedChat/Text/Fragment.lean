import ScriptedChat.Text.Blank

/-!
# Fragments of a text

A streamed text is sent in fragments. Both ways of cutting it lose nothing: the fragments, put
together again, are the text.

* `groupsOf size xs`: consecutive groups of `size` elements, the last one possibly shorter; a size of
  zero counts as one.
* `pieces text`: one piece a word, where the blanks before a word belong to its piece, and the blanks
  after the last word to the last piece.
* `wordFragments size text`: fragments of `size` words, cut only directly after a word.
* `charFragments size text`: fragments of `size` characters.

The simulator's `chunk_words` and `chunk_chars` are `wordFragments` and `charFragments`.
-/

namespace ScriptedChat.Text

/-- Consecutive groups of `size` elements; a size of zero counts as one. -/
def groupsOf {α : Type} (size : Nat) : List α → List (List α)
  | [] => []
  | x :: xs => (x :: xs.take (size - 1)) :: groupsOf size (xs.drop (size - 1))
termination_by xs => xs.length
decreasing_by simp only [List.length_cons, List.length_drop]; omega

/-- Whether a piece begins with blanks that a word follows, so that a word before it ends there. -/
def opensWithGap (piece : List Char) : Bool :=
  piece.head?.any isBlank && piece.any (! isBlank ·)

/-- Puts one more character before the pieces of a text. Only the last character of a word can stand
before a piece that opens with a gap, and it begins a piece of its own. -/
def consPiece (c : Char) : List (List Char) → List (List Char)
  | [] => [[c]]
  | piece :: rest =>
    if ! isBlank c && opensWithGap piece then [c] :: piece :: rest else (c :: piece) :: rest

/-- The text cut directly after every word but the last. -/
def pieces (text : List Char) : List (List Char) :=
  text.foldr consPiece []

/-- The text in fragments of `size` words. -/
def wordFragments (size : Nat) (text : String) : List String :=
  (groupsOf size (pieces text.toList)).map fun group => String.ofList group.flatten

/-- The text in fragments of `size` characters. -/
def charFragments (size : Nat) (text : String) : List String :=
  (groupsOf size text.toList).map String.ofList

end ScriptedChat.Text
