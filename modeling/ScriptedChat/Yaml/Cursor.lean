import ScriptedChat.Text.Search
import ScriptedChat.Yaml.Basic

/-!
# Places in the text of a YAML document

* `characters`: the characters of a text with line ends of one kind.
* `isBreak`, `isBlank`, `gapFollows`: the characters that part words and lines.
* `Position`: a line and a column.
* `Cursor`: what remains of a text from a position on.
* `Cursor.restOfLine?`: skips blanks and a comment.
-/

namespace ScriptedChat.Yaml

/-! ## Characters -/

/-- A text in which every line end that ends nothing but a line is a line feed. -/
def withLineFeeds (version : Version) : List Char → List Char
  | [] => []
  | '\r' :: '\n' :: text => '\n' :: withLineFeeds version text
  | c :: text =>
    (if c = '\r' || (version = .v11 && c = '\u0085') then '\n' else c)
      :: withLineFeeds version text

/-- Characters that version 1.1 allows at all. -/
def isAllowed (c : Char) : Bool :=
  let n := c.toNat
  n == 0x09 || n == 0x0A || n == 0x0D || (0x20 ≤ n && n ≤ 0x7E) || n == 0x85
    || (0xA0 ≤ n && n ≤ 0xFFFD) || 0x10000 ≤ n

/-- The characters of a text with line ends of one kind. In version 1.2 the zero character ends a text. -/
def characters (version : Version) (text : String) : Option (List Char) :=
  match version with
  | .v11 => if text.toList.all isAllowed then some (withLineFeeds version text.toList) else none
  | .v12 => some (withLineFeeds version (text.toList.takeWhile (· ≠ '\x00')))

/-- Characters that end a line. -/
def isBreak (version : Version) (c : Char) : Bool :=
  c = '\n' || (version = .v11 && (c = '\u2028' || c = '\u2029'))

/-- A space or a tab. -/
def isBlank (c : Char) : Bool := c = ' ' || c = '\t'

/-- Whether a word ends before this character. -/
def isSpace (version : Version) (c : Char) : Bool :=
  isBlank c || isBreak version c

/-- Whether no word goes on at the beginning of a text. -/
def gapFollows (version : Version) (text : List Char) : Bool :=
  text.head?.all (isSpace version)

/-- Whether a line ends, or the whole text. -/
def lineEnds (version : Version) (text : List Char) : Bool :=
  text.head?.all (isBreak version)

/-- The characters that set off values in flow style. -/
def isFlowMark (c : Char) : Bool :=
  [',', '[', ']', '\x7b', '\x7d'].contains c

/-- The characters of names: letters, digits, hyphens and underscores. -/
def isWordChar (c : Char) : Bool :=
  ('a' ≤ c && c ≤ 'z') || ('A' ≤ c && c ≤ 'Z') || ('0' ≤ c && c ≤ '9') || c = '-' || c = '_'

/-! ## Positions -/

/-- A position in a text. -/
structure Position where
  index : Nat := 0
  line : Nat := 0
  column : Nat := 0
  /-- whether nothing but blanks stands before on the line -/
  atMargin : Bool := true
  deriving DecidableEq, Repr, Inhabited

/-- The position after a character. -/
def Position.after (version : Version) (position : Position) (c : Char) : Position :=
  if isBreak version c then
    { index := position.index + 1, line := position.line + 1, column := 0, atMargin := true }
  else
    { position with
      index := position.index + 1
      column := position.column + 1
      atMargin := position.atMargin && isBlank c }

/-- What remains of a text from a position on. -/
structure Cursor where
  position : Position
  rest : List Char
  deriving Repr, Inhabited

namespace Cursor

variable (version : Version)

def column (cursor : Cursor) : Nat := cursor.position.column

/-- The cursor after so many characters. -/
def skip (n : Nat) (cursor : Cursor) : Cursor where
  position := (cursor.rest.take n).foldl (Position.after version) cursor.position
  rest := cursor.rest.drop n

/-- The cursor after all characters at the beginning that fulfil a condition. -/
def dropWhile (p : Char → Bool) (cursor : Cursor) : Cursor :=
  cursor.skip version (cursor.rest.takeWhile p).length

def dropBlanks (cursor : Cursor) : Cursor := cursor.dropWhile version isBlank

/-- The cursor at the end of its line. -/
def dropLine (cursor : Cursor) : Cursor := cursor.dropWhile version (! isBreak version ·)

/-- The cursor after the line end before which it stands, if it stands before one. -/
def dropBreak (cursor : Cursor) : Cursor :=
  if cursor.rest.head?.any (isBreak version) then cursor.skip version 1 else cursor

/-- The cursor after blanks and a comment, to the end of the line if there is a comment. Version 1.2
demands a blank before a comment. -/
def restOfLine? (cursor : Cursor) : Option Cursor :=
  let blanks := cursor.rest.takeWhile isBlank
  let cursor' := cursor.dropBlanks version
  if cursor'.rest.head? = some '#' then
    if version = .v12 && blanks.isEmpty then none else some (cursor'.dropLine version)
  else some cursor'

/-- The mark that begins or ends a document, where a cursor stands before one. -/
def documentMark? (cursor : Cursor) : Option Token :=
  let after (mark : List Char) : Bool :=
    (Text.afterFront? mark cursor.rest).any (gapFollows version)
  if after ['-', '-', '-'] then some .documentStart
  else if after ['.', '.', '.'] then some .documentEnd
  else none

/-- Whether a document begins or ends on the line at whose beginning a cursor stands. -/
def atDocumentMark (cursor : Cursor) : Bool :=
  cursor.column = 0 && (cursor.documentMark? version).isSome

end Cursor

end ScriptedChat.Yaml
