import ScriptedChat.Toml.Scalar
import ScriptedChat.Toml.Table

/-!
# Reading TOML

A document consists of pairs of a key and a value, one on a line, and of headers that name the table to
which the following pairs belong. Values are scalars, arrays and tables between braces.

* `skipSpace?`, `lineEnd?`: what stands between lines and between the items of arrays.
* `key?`: reads the names of a key.
* `value`: reads one value.
* `read?`: the table that a text denotes.
-/

namespace ScriptedChat.Toml

/-! ## Blanks and names -/

/-- Skips gaps, line ends and comments. -/
def skipSpace? (inRemark : Bool) : List Char → Option (List Char)
  | [] => some []
  | c :: text =>
    if c = '\n' then skipSpace? false text
    else if c = '\r' then if text.head? = some '\n' then skipSpace? inRemark text else none
    else if inRemark then if isTextChar c then skipSpace? true text else none
    else if c = '#' then skipSpace? true text
    else if isGap c then skipSpace? false text
    else some (c :: text)

/-- What follows the end of a line; only a comment may stand before it. -/
def lineEnd? (text : List Char) : Option (List Char) :=
  let text := match dropGap text with
    | '#' :: rest => rest.dropWhile isTextChar
    | rest => rest
  if text.isEmpty then some [] else afterBreak? text

/-- Reads one name of a key. -/
def name? (text : List Char) : Option (String × List Char) :=
  match shortString? text with
  | some read => some read
  | none =>
    let name := text.takeWhile isNameChar
    if name.isEmpty then none else some (String.ofList name, text.dropWhile isNameChar)

/-- Reads the names of a key, with points between them; as many rounds as there are characters
suffice. -/
def key? : Nat → List Char → Option (List String × List Char)
  | 0, _ => none
  | fuel + 1, text =>
    match name? (dropGap text) with
    | none => none
    | some (name, rest) =>
      match dropGap rest with
      | '.' :: rest => (key? fuel rest).map fun (names, rest) => (name :: names, rest)
      | rest => some ([name], rest)

/-! ## Values -/

/-- The greatest number of levels of arrays and tables in a value. -/
def maxDepth : Nat := 80

mutual

/-- Reads a value in which arrays and tables are nested at most `depth` levels. Every level of brackets
and every item takes a character, so as many rounds as there are characters suffice. -/
def value : Nat → Nat → List Char → Option (Json × List Char)
  | 0, _, _ => none
  | fuel + 1, depth, text =>
    match text, depth with
    | '[' :: _, 0 => none
    | '\x7b' :: _, 0 => none
    | '[' :: rest, depth + 1 => items fuel depth [] rest
    | '\x7b' :: rest, depth + 1 => pairs fuel depth [] rest
    | text, _ => scalar? text

/-- Reads the items of an array up to its closing bracket. -/
def items : Nat → Nat → List Json → List Char → Option (Json × List Char)
  | 0, _, _, _ => none
  | fuel + 1, depth, read, text =>
    match skipSpace? false text with
    | none => none
    | some (']' :: rest) => some (.arr read.reverse, rest)
    | some text =>
      match value fuel depth text with
      | none => none
      | some (item, rest) =>
        match skipSpace? false rest with
        | some (',' :: rest) => items fuel depth (item :: read) rest
        | some (']' :: rest) => some (.arr (item :: read).reverse, rest)
        | _ => none

/-- Reads the pairs of a table up to its closing brace. -/
def pairs : Nat → Nat → Fields → List Char → Option (Json × List Char)
  | 0, _, _, _ => none
  | fuel + 1, depth, fields, text =>
    match skipSpace? false text with
    | none => none
    | some ('\x7d' :: rest) => some (fields.toJson, rest)
    | some text =>
      match key? text.length text with
      | some (path, '=' :: rest) =>
        match value fuel depth (dropGap rest) with
        | none => none
        | some (item, rest) =>
          match addPair? path item fields, skipSpace? false rest with
          | some fields, some (',' :: rest) => pairs fuel depth fields rest
          | some fields, some ('\x7d' :: rest) => some (fields.toJson, rest)
          | _, _ => none
      | _ => none

end

/-! ## Documents -/

/-- What has been read of a document. -/
structure Progress where
  root : Fields
  /-- the path of the table to which pairs belong -/
  current : List String

/-- Reads one line: a header or a pair. -/
def line? (progress : Progress) (text : List Char) : Option (Progress × List Char) :=
  match text with
  | '[' :: '[' :: rest =>
    match key? rest.length rest with
    | some (path, ']' :: ']' :: rest) => do
      return ({ root := ← openItem? path progress.root, current := path }, ← lineEnd? rest)
    | _ => none
  | '[' :: rest =>
    match key? rest.length rest with
    | some (path, ']' :: rest) => do
      return ({ root := ← openTable? path progress.root, current := path }, ← lineEnd? rest)
    | _ => none
  | text =>
    match key? text.length text with
    | some (path, '=' :: rest) => do
      let (item, rest) ← value (rest.length + 1) maxDepth (dropGap rest)
      let root ← addPairAt? progress.current path item progress.root
      return ({ progress with root }, ← lineEnd? rest)
    | _ => none

/-- Reads the lines of a document; as many rounds as there are characters suffice. -/
def linesFrom : Nat → Progress → List Char → Option Json
  | 0, _, _ => none
  | fuel + 1, progress, text =>
    match skipSpace? false text with
    | none => none
    | some [] => some progress.root.toJson
    | some text => do
      let (progress, rest) ← line? progress text
      linesFrom fuel progress rest

/-- The table that a text denotes. A mark of the byte order may stand before it. -/
def read? (text : String) : Option Json :=
  let chars := match text.toList with
    | '\uFEFF' :: rest => rest
    | rest => rest
  linesFrom (chars.length + 1) { root := [], current := [] } chars

end ScriptedChat.Toml
