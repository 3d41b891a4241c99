/-!
# Filling lines

Words are put on lines of a given width, each on the line before it if there is room, and one space stands
between two words of a line. A word that is wider than a line has a line of its own.

* `words`: the words of a text, which spaces part.
* `fill`: the lines of a text.
-/

namespace ScriptedChat.Text

/-- The words of a text; between two spaces that stand together there is an empty one. -/
def words : List Char → List (List Char)
  | [] => [[]]
  | c :: text =>
    match words text with
    | [] => [[c]]
    | word :: rest => if c = ' ' then [] :: word :: rest else (c :: word) :: rest

/-- Puts one more word on the last line, if there is room, or else on a new one; the last line comes
first. -/
def addWord (width : Nat) (lines : List (List Char)) (word : List Char) : List (List Char) :=
  match lines with
  | [] => [word]
  | line :: lines =>
    if line.length + 1 + word.length ≤ width then (line ++ ' ' :: word) :: lines
    else word :: line :: lines

/-- The lines of a text. -/
def fill (width : Nat) (text : String) : List String :=
  (((words text.toList).foldl (addWord width) []).reverse).map String.ofList

end ScriptedChat.Text
