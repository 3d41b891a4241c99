import ScriptedChat.Json.Basic
import ScriptedChat.Text.Blank
import ScriptedChat.Text.Numeral

/-!
# Reading INI files

A file consists of pairs of a name and a value, with an equals sign or a colon between them, and of heads
in brackets that name the section to which the following pairs belong. All values are texts. A comment
begins in the first column.

* `textUntil?`: reads a text with escapes up to its end.
* `value?`: reads the value of a pair.
* `read?`: the table that a text denotes.
-/

namespace ScriptedChat.Ini

/-! ## Texts -/

/-- Where a reader stands in a text with escapes. -/
inductive TextState where
  | text
  | escaped
  /-- inside an escape of a character by its number; the digits so far, the last one first -/
  | hex (digits : List Char)

/-- The character that an escape of one letter stands for; other characters stand for themselves. -/
def escape (c : Char) : Char :=
  match c with
  | '0' => '\x00'
  | 'a' => '\x07'
  | 'b' => '\x08'
  | 't' => '\t'
  | 'r' => '\r'
  | 'n' => '\n'
  | c => c

/-- The character with the number that four characters denote: digits in base sixteen, before which a plus
sign may stand. -/
def numbered? (chars : List Char) : Option Char :=
  let digits := match chars with
    | '+' :: digits => digits
    | digits => digits
  (Text.numeral? 16 digits).bind Text.charOf?

/-- Reads a text up to a character that ends it, which is not taken; `read` is the text so far, the last
character first. An escaped line end stands for nothing. -/
def textUntil? (ends : Char → Bool) (mayEndFile : Bool) (state : TextState) (read : List Char) :
    List Char → Option (List Char × List Char)
  | [] =>
    match state with
    | .text => if mayEndFile then some (read.reverse, []) else none
    | _ => none
  | c :: rest =>
    match state with
    | .escaped =>
      if c = 'x' then textUntil? ends mayEndFile (.hex []) read rest
      else if c = '\n' then textUntil? ends mayEndFile .text read rest
      else textUntil? ends mayEndFile .text (escape c :: read) rest
    | .hex digits =>
      if digits.length < 3 then textUntil? ends mayEndFile (.hex (c :: digits)) read rest
      else
        match numbered? (c :: digits).reverse with
        | some e => textUntil? ends mayEndFile .text (e :: read) rest
        | none => none
    | .text =>
      if ends c then some (read.reverse, c :: rest)
      else if c = '\\' then textUntil? ends mayEndFile .escaped read rest
      else textUntil? ends mayEndFile .text (c :: read) rest

/-- Characters that end a line. -/
def isBreak (c : Char) : Bool := c = '\n' || c = '\r'

/-- Blanks that do not end a line. -/
def isGap (c : Char) : Bool := Text.isBlank c && ! isBreak c

/-- Reads the value of a pair: texts between quotation marks, one directly after the other, and what
follows them on the line. Blanks at its end do not count, nor do blanks before the first part; `read` holds
the quoted parts so far. Every text takes a character, so as many rounds as there are characters suffice. -/
def value? : Nat → Option (List Char) → List Char → Option (List Char × List Char)
  | 0, _, _ => none
  | fuel + 1, read, text =>
    match text with
    | [] => some (read.getD [], [])
    | c :: rest =>
      if c = '"' || c = '\'' then
        match textUntil? (· = c) false .text [] rest with
        | some (quoted, _ :: rest) => value? fuel (some (read.getD [] ++ quoted)) rest
        | _ => none
      else
        (textUntil? isBreak true .text [] (c :: rest)).map fun (plain, rest) =>
          match read with
          | none => (Text.trim plain, rest)
          | some read => (read ++ Text.trimEnd plain, rest)

/-! ## Files -/

/-- What has been read of a file. -/
structure Progress where
  /-- the pairs before the first section, the last one first -/
  general : List (String × Json) := []
  /-- the sections, the last one first, with their pairs, the last one first -/
  sections : List (String × List (String × Json)) := []
  /-- a name that waits for its value -/
  name : String := ""

/-- What has been read, with one more pair. -/
def Progress.addPair (progress : Progress) (value : String) : Progress :=
  match progress.sections with
  | [] => { progress with general := (progress.name, .str value) :: progress.general, name := "" }
  | (title, pairs) :: sections =>
    { progress with
      sections := (title, (progress.name, .str value) :: pairs) :: sections
      name := "" }

/-- A text without blanks at its ends. -/
def trimmedText (chars : List Char) : String := String.ofList (Text.trim chars)

/-- Reads one part of a file: a comment, a head, a name, or a value after its mark. -/
def part? (progress : Progress) (atLineStart : Bool) (c : Char) (rest : List Char) :
    Option (Progress × List Char) :=
  if c = ';' || c = '#' then
    if atLineStart then some (progress, rest.dropWhile (· ≠ '\n')) else none
  else if c = '[' then
    match textUntil? (· = ']') false .text [] rest with
    | some (title, _ :: rest) =>
      some ({ progress with sections := (trimmedText title, []) :: progress.sections }, rest)
    | _ => none
  else if c = '=' || c = ':' then
    if progress.name = "" then none
    else
      let text := rest.dropWhile isGap
      (value? (text.length + 1) none text).map fun (value, rest) =>
        (progress.addPair (String.ofList value), rest)
  else
    (textUntil? (fun c => c = '=' || c = ':') false .text [] (c :: rest)).map fun (name, rest) =>
      ({ progress with name := trimmedText name }, rest)

/-- Reads the parts of a file; as many rounds as there are characters suffice. -/
def parts? : Nat → Progress → Bool → List Char → Option Progress
  | 0, _, _, _ => none
  | fuel + 1, progress, isFirst, text =>
    let blanks := text.takeWhile Text.isBlank
    match text.dropWhile Text.isBlank with
    | [] => some progress
    | c :: rest =>
      let atLineStart := (isFirst && blanks.isEmpty) || blanks.getLast? = some '\n'
      match part? progress atLineStart c rest with
      | none => none
      | some (progress, rest) => parts? fuel progress false rest

/-- The table that a text denotes. Of several pairs of a name, and of several sections of a name, the last
one counts. -/
def read? (text : String) : Option Json := do
  let progress ← parts? (text.length + 1) {} true text.toList
  let sections := progress.sections.map fun (title, pairs) => (title, Json.object pairs.reverse)
  return .object (progress.general.reverse ++ sections.reverse)

end ScriptedChat.Ini
