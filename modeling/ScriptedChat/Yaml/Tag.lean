import ScriptedChat.Text.Numeral
import ScriptedChat.Yaml.Cursor

/-!
# Anchors, tags and directives

* `anchor?`: reads an anchor or an alias.
* `tag?`: reads a tag.
* `directive?`: reads a directive, which stands on a line of its own before a document.
-/

namespace ScriptedChat.Yaml

/-! ## Anchors -/

/-- The characters of the name of an anchor. -/
def isAnchorChar (version : Version) (c : Char) : Bool :=
  match version with
  | .v11 => isWordChar c
  | .v12 => ! isSpace version c && ! isFlowMark c && c ≠ '\uFEFF'

/-- Reads the name of an anchor or an alias after its mark. -/
def anchor? (version : Version) (cursor : Cursor) : Option (String × Cursor) :=
  let name := cursor.rest.takeWhile (isAnchorChar version)
  let after := cursor.skip version name.length
  let ends := version = .v12 || gapFollows version after.rest
    || after.rest.head?.any fun c => "?:,]\x7d%@\x60".toList.contains c
  if name.isEmpty || ! ends then none else some (String.ofList name, after)

/-! ## Tags -/

/-- The characters of the names of tags that are written in full. -/
def isFullTagChar (version : Version) (c : Char) : Bool :=
  isWordChar c || ";/?:@&=+$.!~*'()%,[]".toList.contains c || (version = .v12 && c = '#')

/-- The characters of the names of tags after a handle. -/
def isTagChar (version : Version) (c : Char) : Bool :=
  isFullTagChar version c && ! isFlowMark c && (version = .v11 || c ≠ '!')

/-- The value of the byte that a percent sign and two digits stand for. -/
def percentByte? : List Char → Option (Nat × List Char)
  | '%' :: a :: b :: rest => (Text.numeral? 16 [a, b]).map fun byte => (byte, rest)
  | _ => none

/-- The number of bytes of a character, from its first byte. -/
def encodedLength? (byte : Nat) : Option Nat :=
  if byte < 0x80 then some 1
  else if byte < 0xC0 then none
  else if byte < 0xE0 then some 2
  else if byte < 0xF0 then some 3
  else if byte < 0xF8 then some 4
  else none

/-- Skips so many further bytes of a character. -/
def furtherBytes? : Nat → List Char → Option (List Char)
  | 0, text => some text
  | n + 1, text => do
    let (byte, rest) ← percentByte? text
    if 0x80 ≤ byte && byte < 0xC0 then furtherBytes? n rest else none

/-- Reads a character that is written as bytes. No tag with a meaning has a character of several bytes, so
any such character will do. Version 1.2 takes only some characters of two bytes and none of more. -/
def percentChar? (version : Version) (text : List Char) : Option (Char × List Char) := do
  let (byte, rest) ← percentByte? text
  let length ← encodedLength? byte
  let rest ← furtherBytes? (length - 1) rest
  if length = 1 then return (Char.ofNat byte, rest)
  else if version = .v12 && 0xD8 ≤ byte then none
  else return ('\uFFFD', rest)

/-- Reads characters of a tag; as many rounds as there are characters suffice. -/
def tagChars (version : Version) (isChar : Char → Bool) :
    Nat → List Char → Option (List Char × List Char)
  | 0, _ => none
  | _, [] => some ([], [])
  | fuel + 1, c :: text =>
    if ! isChar c then some ([], c :: text)
    else do
      let (read, rest) ← if c = '%' then percentChar? version (c :: text) else some (c, text)
      let (more, rest) ← tagChars version isChar fuel rest
      return (read :: more, rest)

/-- Reads characters of a tag from a cursor on. -/
def tagText? (version : Version) (isChar : Char → Bool) (cursor : Cursor) :
    Option (String × Cursor) := do
  let (text, rest) ← tagChars version isChar (cursor.rest.length + 1) cursor.rest
  return (String.ofList text, cursor.skip version (cursor.rest.length - rest.length))

/-- Reads a handle: a mark, perhaps with a name and another mark after it. -/
def handle? (version : Version) (cursor : Cursor) : Option (String × Cursor) :=
  match cursor.rest with
  | '!' :: rest =>
    let name := rest.takeWhile isWordChar
    let isClosed := (rest.drop name.length).head? = some '!'
    let handle := '!' :: name ++ if isClosed then ['!'] else []
    some (String.ofList handle, cursor.skip version handle.length)
  | _ => none

/-- Whether a handle has a second mark. -/
def isClosedHandle (handle : String) : Bool :=
  2 ≤ handle.length && handle.toList.getLast? = some '!'

/-- Reads a tag that is written in full, after its opening bracket. -/
def fullTag? (version : Version) (cursor : Cursor) : Option (Tag × Cursor) := do
  let (text, after) ← tagText? version (isFullTagChar version) cursor
  if version = .v11 && text = "" then none
  if after.rest.head? = some '>' then return ({ handle := "", suffix := text }, after.skip version 1)
  else none

/-- Reads a tag with a handle. What follows a handle without a second mark is a name of its own, and a mark
alone is a tag without a handle. -/
def shortTag? (version : Version) (cursor : Cursor) : Option (Tag × Cursor) := do
  let (handle, after) ← handle? version cursor
  let (text, rest) ← tagText? version (isTagChar version) after
  if isClosedHandle handle then
    if text = "" then none else return ({ handle, suffix := text }, rest)
  else
    let suffix := String.ofList (handle.toList.drop 1) ++ text
    if suffix = "" then return ({ handle := "", suffix := "!" }, rest)
    else return ({ handle := "!", suffix }, rest)

/-- Reads a tag, before whose mark the cursor stands. -/
def tag? (version : Version) (inFlow : Bool) (cursor : Cursor) : Option (Tag × Cursor) := do
  let (tag, after) ←
    if (cursor.rest.drop 1).head? = some '<' then fullTag? version (cursor.skip version 2)
    else shortTag? version cursor
  let ends := gapFollows version after.rest || inFlow && after.rest.head?.any fun c =>
    c = ',' || (version = .v12 && isFlowMark c)
  if ends then return (tag, after) else none

/-! ## Directives -/

/-- Reads a number of at most nine digits. -/
def versionNumber? (version : Version) (cursor : Cursor) : Option (Nat × Cursor) :=
  let digits := cursor.rest.takeWhile Text.isDigit
  if digits.length ≤ 9 then
    (Text.readNat? digits).map fun n => (n, cursor.skip version digits.length)
  else none

/-- Reads the version that a directive names. -/
def versionDirective? (version : Version) (cursor : Cursor) : Option (Token × Cursor) := do
  let (major, cursor) ← versionNumber? version (cursor.dropBlanks version)
  if cursor.rest.head? ≠ some '.' then none
  let (minor, cursor) ← versionNumber? version (cursor.skip version 1)
  return (.versionDirective major minor, cursor)

/-- Reads the beginning of tags for which a handle is to stand. In version 1.2 it begins with a mark or
with a character that may stand after a handle. -/
def tagBeginning? (version : Version) (cursor : Cursor) : Option (String × Cursor) := do
  let isLocal := version = .v12 && cursor.rest.head? = some '!'
  if version = .v12 && ! isLocal && ! cursor.rest.head?.any (isTagChar version) then none
  let (text, after) ← tagText? version (isFullTagChar version) cursor
  if text = "" then none else return (text, after)

/-- Reads the handle that a directive declares, and the beginning of tags for which it is to stand. -/
def tagDirective? (version : Version) (cursor : Cursor) : Option (Token × Cursor) := do
  let (handle, after) ← handle? version (cursor.dropBlanks version)
  if handle ≠ "!" && ! isClosedHandle handle then none
  if version = .v11 && ! after.rest.head?.any isBlank then none
  let (beginning, after) ← tagBeginning? version (after.dropBlanks version)
  if gapFollows version after.rest then return (.tagDirective handle beginning, after) else none

/-- Reads a directive up to the end of its line. Version 1.2 passes over directives that it does not
know. -/
def directive? (version : Version) (cursor : Cursor) : Option (Token × Cursor) := do
  let start := cursor.skip version 1
  let name := start.rest.takeWhile isWordChar
  let after := start.skip version name.length
  if name.isEmpty || ! gapFollows version after.rest then none
  let (token, after) ←
    if name = "YAML".toList then versionDirective? version after
    else if name = "TAG".toList then tagDirective? version after
    else if version = .v12 then some (.tagDirective "" "", after.dropLine version)
    else none
  let after ← after.restOfLine? version
  if lineEnds version after.rest then return (token, after.dropBreak version) else none

end ScriptedChat.Yaml
