import ScriptedChat.Text.Numeral
import ScriptedChat.Yaml.Cursor

/-!
# Literal and folded scalars

A literal scalar is the lines below its head, without their indentation. In a folded scalar the line end
between two lines that do not begin with a blank is a space, and of several line ends all but one remain.

* `ScalarHead`, `scalarHead?`: what stands after the mark of a scalar.
* `skipIndentation?`: skips the indentation of a line, and empty lines.
* `contentLines?`: reads lines with content.
* `blockScalar?`: reads a scalar.
-/

namespace ScriptedChat.Yaml

/-! ## The head -/

/-- What is done with the line ends at the end of a scalar. -/
inductive Chomping where
  /-- one of them remains -/
  | clip
  | strip
  | keep
  deriving DecidableEq, Repr

/-- What the head of a scalar says. -/
structure ScalarHead where
  /-- the indentation beyond that of the node around it, if it is given -/
  extra : Option Nat := none
  chomping : Chomping := .clip
  deriving DecidableEq, Repr

/-- The chomping that a character stands for. -/
def chomping? (c : Char) : Option Chomping :=
  if c = '+' then some .keep else if c = '-' then some .strip else none

/-- Reads a digit for the indentation, where one stands; it must not be zero. -/
def extra? (version : Version) (cursor : Cursor) : Option (Option Nat × Cursor) :=
  match cursor.rest with
  | c :: _ =>
    if ! Text.isDigit c then some (none, cursor)
    else if c = '0' then none
    else some (some (Text.digitValue c), cursor.skip version 1)
  | [] => some (none, cursor)

/-- Reads a sign for the chomping, where one stands. -/
def chompingSign (version : Version) (cursor : Cursor) : Option Chomping × Cursor :=
  match cursor.rest.head?.bind chomping? with
  | some chomping => (some chomping, cursor.skip version 1)
  | none => (none, cursor)

/-- Reads what stands after the mark of a scalar: a sign and a digit in either order, and perhaps a
comment. -/
def scalarHead? (version : Version) (cursor : Cursor) : Option (ScalarHead × Cursor) := do
  let (first, cursor) := chompingSign version cursor
  let (extra, cursor) ← extra? version cursor
  let (second, cursor) := if first.isNone && extra.isSome then chompingSign version cursor
    else (none, cursor)
  let cursor ← cursor.restOfLine? version
  if ! lineEnds version cursor.rest then none
  return ({ extra, chomping := (first.or second).getD .clip }, cursor)

/-! ## Lines -/

/-- Indentation that has been skipped. -/
structure Indentation where
  /-- the ends of the empty lines, the last one first -/
  breaks : List Char
  /-- the greatest number of spaces -/
  most : Nat
  cursor : Cursor

/-- Skips the indentation of a line, up to the given number of spaces or, where it is not known, all of
them, and before it empty lines. Version 1.1 allows no tab in the indentation. -/
def skipIndentation? (version : Version) (indent : Option Nat) (breaks : List Char) (most : Nat)
    (position : Position) : List Char → Option Indentation
  | [] => some ⟨breaks, max most position.column, ⟨position, []⟩⟩
  | c :: rest =>
    let next := position.after version c
    let inIndentation := indent.all (position.column < ·)
    if c = ' ' && inIndentation then skipIndentation? version indent breaks most next rest
    else if c = '\t' && inIndentation && version = .v11 then none
    else if isBreak version c then
      skipIndentation? version indent (c :: breaks) (max most position.column) next rest
    else some ⟨breaks, max most position.column, ⟨position, c :: rest⟩⟩

/-- What has been read of a scalar. -/
structure ScalarReading where
  /-- the text, the last character first -/
  read : List Char := []
  /-- the end of the last line with content -/
  lineEnd : Option Char := none
  /-- the ends of the empty lines after it, the last one first -/
  breaks : List Char
  /-- whether the last line begins with a blank -/
  hasBlank : Bool := false
  cursor : Cursor

/-- The text between two lines with content. -/
def ScalarReading.between (reading : ScalarReading) (isFolded nextHasBlank : Bool) : List Char :=
  let lineEnd :=
    if isFolded && reading.lineEnd = some '\n' && ! reading.hasBlank && ! nextHasBlank then
      if reading.breaks.isEmpty then [' '] else []
    else reading.lineEnd.toList
  lineEnd ++ reading.breaks.reverse

/-- Reads lines that stand at the given indentation. Every line takes a character, so as many rounds as
there are characters suffice. -/
def contentLines? (version : Version) (isFolded : Bool) (indent : Nat) :
    Nat → ScalarReading → Option ScalarReading
  | 0, _ => none
  | fuel + 1, reading =>
    let cursor := reading.cursor
    if cursor.rest.isEmpty || cursor.column ≠ indent then some reading
    else if version = .v12 && cursor.atDocumentMark version then some reading
    else
      let line := cursor.rest.takeWhile (! isBreak version ·)
      let hasBlank := line.head?.any isBlank
      let read := line.reverse ++ (reading.between isFolded hasBlank).reverse ++ reading.read
      let lineEnd := (cursor.rest.drop line.length).head?
      let after := (cursor.skip version line.length).dropBreak version
      if lineEnd.isNone then some { read, lineEnd, breaks := [], hasBlank, cursor := after }
      else
        match skipIndentation? version (some indent) [] 0 after.position after.rest with
        | none => none
        | some ⟨breaks, _, cursor⟩ =>
          contentLines? version isFolded indent fuel { read, lineEnd, breaks, hasBlank, cursor }

/-! ## Scalars -/

/-- The line ends at the end of a scalar. In version 1.2 a line that ends with the whole text counts as if
it had a line end. -/
def ScalarReading.ending (reading : ScalarReading) (version : Version) (indent : Nat)
    (chomping : Chomping) : List Char :=
  let atEnd := version = .v12 && reading.cursor.rest.isEmpty
    && max indent 1 ≤ reading.cursor.column
  match chomping with
  | .strip => []
  | .clip => reading.lineEnd.toList ++ if atEnd then ['\n'] else []
  | .keep => reading.lineEnd.toList ++ (if atEnd then ['\n'] else []) ++ reading.breaks.reverse

/-- The indentation of a scalar in a node at the indentation `parent`, from the lines at its beginning. -/
def scalarIndent (version : Version) (parent : Int) (most : Nat) : Nat :=
  let least := (parent + 1).toNat
  match version with
  | .v11 => max most (max least 1)
  | .v12 => max most least

/-- The text of a scalar of which there are only empty lines before the end of the whole text, in version
1.2: `hasLine` tells whether the line of the head has an end. -/
def emptyScalar (chomping : Chomping) (hasLine : Bool) (breaks : List Char) : List Char :=
  match chomping with
  | .strip => []
  | .clip => if hasLine then ['\n'] else []
  | .keep => if ! hasLine then [] else if breaks.isEmpty then ['\n'] else breaks.reverse

/-- Reads a literal or folded scalar, before whose mark the cursor stands, in a node at the indentation
`parent`. -/
def blockScalar? (version : Version) (parent : Int) (cursor : Cursor) :
    Option (Style × String × Cursor) := do
  let isFolded := cursor.rest.head? = some '>'
  let style : Style := if isFolded then .folded else .literal
  let (head, atEnd) ← scalarHead? version (cursor.skip version 1)
  let body := atEnd.dropBreak version
  if version = .v12 && body.rest.head? = some '\t' then none
  let given := head.extra.map fun extra => (max parent 0).toNat + extra
  let start ← skipIndentation? version given [] 0 body.position body.rest
  let indent := given.getD (scalarIndent version parent start.most)
  if version = .v12 && start.cursor.rest.isEmpty then
    let text := emptyScalar head.chomping (! atEnd.rest.isEmpty) start.breaks
    return (style, String.ofList text, start.cursor)
  if version = .v12 && start.cursor.column < indent && parent < (start.cursor.column : Int) then none
  let reading ← contentLines? version isFolded indent (cursor.rest.length + 1)
    { breaks := start.breaks, cursor := start.cursor }
  let text := reading.read.reverse ++ reading.ending version indent head.chomping
  return (style, String.ofList text, reading.cursor)

end ScriptedChat.Yaml
