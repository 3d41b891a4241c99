import ScriptedChat.Yaml.Cursor

/-!
# Gaps between words

Where a scalar goes on from one line to the next, the line end and the blanks around it stand for a space.
Of several line ends all but one remain.

* `Gap`: what stands between two words.
* `Gap.text`: the text that it stands for.
-/

namespace ScriptedChat.Yaml

/-- What stands between two words of a scalar. -/
inductive Gap where
  /-- blanks within a line, the last one first -/
  | blanks (read : List Char)
  /-- line ends with the blanks around them: the first one, unless it is escaped, and the others, the last
  one first -/
  | breaks (first : Option Char) (others : List Char)
  deriving DecidableEq, Repr

namespace Gap

/-- Between the characters of a word. -/
def none : Gap := .blanks []

/-- Whether the gap goes on to another line. -/
def hasBreak : Gap → Bool
  | .blanks _ => false
  | .breaks _ _ => true

/-- A gap with one more character. -/
def push (version : Version) (c : Char) : Gap → Gap
  | .blanks read => if isBreak version c then .breaks (some c) [] else .blanks (c :: read)
  | .breaks first others =>
    if isBreak version c then .breaks first (c :: others) else .breaks first others

/-- The text that a gap stands for. Only line feeds become spaces. -/
def text : Gap → List Char
  | .blanks read => read.reverse
  | .breaks (some '\n') [] => [' ']
  | .breaks (some '\n') others => others.reverse
  | .breaks (some c) others => c :: others.reverse
  | .breaks Option.none others => others.reverse

end Gap

end ScriptedChat.Yaml
