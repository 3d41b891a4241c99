import ScriptedChat.Binary64.Decimal
import ScriptedChat.Json.Basic
import ScriptedChat.Text.Numeral
import ScriptedChat.Text.Search

/-!
# Reading RON

In this object notation a record stands between parentheses, with names before its values, and so does a
tuple, without names. A name may stand before either. There are lists, maps, texts, characters, numbers,
truth values, and values that may be absent.

* `skipSpace?`: skips blanks and comments.
* `skipAttributes?`: skips the marks at the beginning that allow extensions of the notation.
* `string?`, `character?`, `number?`: read scalars.
* `value`: reads a value.
* `read?`: the value of a text.
-/

namespace ScriptedChat.Ron

/-! ## Blanks -/

/-- Blanks that part the words of a notation. -/
def isSpace (c : Char) : Bool :=
  let n := c.toNat
  (0x09 ≤ n && n ≤ 0x0D) || n == 0x20 || n == 0x85 || n == 0x200E || n == 0x200F
    || n == 0x2028 || n == 0x2029

/-- Where a reader stands between values. -/
inductive SpaceState where
  | space
  | line
  /-- in so many comments, one inside the other -/
  | block (depth : Nat)

/-- Skips blanks and comments. A comment between slashes and asterisks must have an end. -/
def skipSpace? (state : SpaceState) : List Char → Option (List Char)
  | [] => match state with
    | .block _ => none
    | _ => some []
  | c :: rest =>
    match state with
    | .line => skipSpace? (if c = '\n' then .space else .line) rest
    | .block depth =>
      match c, rest with
      | '*', '/' :: rest => skipSpace? (if depth ≤ 1 then .space else .block (depth - 1)) rest
      | '/', '*' :: rest => skipSpace? (.block (depth + 1)) rest
      | _, rest => skipSpace? (.block depth) rest
    | .space =>
      if isSpace c then skipSpace? .space rest
      else
        match c, rest with
        | '/', '/' :: rest => skipSpace? .line rest
        | '/', '*' :: rest => skipSpace? (.block 1) rest
        | c, rest => some (c :: rest)

/-! ## Names -/

/-- The characters of names. Beyond ASCII every character but a blank counts as a letter. -/
def isNameChar (c : Char) : Bool :=
  ('a' ≤ c && c ≤ 'z') || ('A' ≤ c && c ≤ 'Z') || Text.isDigit c || c = '_'
    || (0x80 ≤ c.toNat && ! isSpace c)

/-- Reads a name, which does not begin with a digit, or one after `r#`, which may consist of points and
signs as well. -/
def name? : List Char → Option (String × List Char)
  | 'r' :: '#' :: text =>
    let name := text.takeWhile fun c => isNameChar c || c = '.' || c = '+' || c = '-'
    if name.isEmpty then none else some (String.ofList name, text.drop name.length)
  | text =>
    let name := text.takeWhile isNameChar
    if name.isEmpty || name.head?.any Text.isDigit then none
    else some (String.ofList name, text.drop name.length)

/-! ## Extensions -/

/-- The names of extensions. None of them changes the meaning of a value whose type is not known. -/
def extensions : List String :=
  ["unwrap_newtypes", "implicit_some", "unwrap_variant_newtypes", "explicit_struct_names"]

/-- What follows words at the beginning of a text, with blanks between them. -/
def skipWords? : List String → List Char → Option (List Char)
  | [], text => some text
  | word :: words, text => do
    skipWords? words (← skipSpace? .space (← Text.afterFront? word.toList text))

/-- Skips a list of extensions; as many rounds as there are characters suffice. -/
def skipExtensions? : Nat → List Char → Option (List Char)
  | 0, _ => none
  | fuel + 1, text =>
    match name? text with
    | none => none
    | some (name, rest) =>
      if ! extensions.contains name then none
      else
        match skipSpace? .space rest with
        | some (',' :: rest) =>
          match skipSpace? .space rest with
          | some (')' :: rest) => some (')' :: rest)
          | some rest => skipExtensions? fuel rest
          | none => none
        | rest => rest

/-- Skips the marks at the beginning of a text that allow extensions; as many rounds as there are
characters suffice. -/
def skipAttributes? : Nat → List Char → Option (List Char)
  | 0, _ => none
  | fuel + 1, text =>
    match skipSpace? .space text with
    | some ('#' :: rest) =>
      match (skipWords? ["#", "!", "[", "enable", "("] ('#' :: rest)).bind
          (skipExtensions? (rest.length + 1)) with
      | some rest => (skipWords? [")", "]"] rest).bind (skipAttributes? fuel)
      | none => none
    | rest => rest

/-! ## Texts -/

/-- Reads what follows a backslash: the character that it stands for. -/
def escaped? : List Char → Option (Char × List Char)
  | '\'' :: rest => some ('\'', rest)
  | '"' :: rest => some ('"', rest)
  | '\\' :: rest => some ('\\', rest)
  | 'n' :: rest => some ('\n', rest)
  | 'r' :: rest => some ('\r', rest)
  | 't' :: rest => some ('\t', rest)
  | '0' :: rest => some ('\x00', rest)
  | 'x' :: a :: b :: rest => do
    return (← (Text.numeral? 16 [a, b]).bind Text.charOf?, rest)
  | 'u' :: '\x7b' :: rest => do
    let digits := rest.takeWhile (· ≠ '\x7d')
    if 6 < digits.length then none
    return (← (Text.numeral? 16 digits).bind Text.charOf?, rest.drop (digits.length + 1))
  | _ => none

/-- Reads a text up to its closing quotation mark; every round takes a character. -/
def stringFrom : Nat → List Char → List Char → Option (String × List Char)
  | 0, _, _ => none
  | fuel + 1, read, text =>
    match text with
    | [] => none
    | '"' :: rest => some (String.ofList read.reverse, rest)
    | '\\' :: rest =>
      match escaped? rest with
      | some (c, rest) => stringFrom fuel (c :: read) rest
      | none => none
    | c :: rest => stringFrom fuel (c :: read) rest

/-- Reads a text without escapes up to a quotation mark with so many number signs after it. -/
def rawString (signs : List Char) : List Char → Option (List Char × List Char)
  | [] => none
  | c :: rest =>
    match Text.afterFront? ('"' :: signs) (c :: rest) with
    | some after => some ([], after)
    | none => (rawString signs rest).map fun (read, after) => (c :: read, after)

/-- Reads a text. -/
def string? : List Char → Option (String × List Char)
  | '"' :: text => stringFrom (text.length + 1) [] text
  | 'r' :: text =>
    let signs := text.takeWhile (· = '#')
    match text.drop signs.length with
    | '"' :: text => (rawString signs text).map fun (read, rest) => (String.ofList read, rest)
    | _ => none
  | _ => none

/-- Reads a character between single quotation marks. -/
def character? : List Char → Option (Char × List Char)
  | '\'' :: '\\' :: text =>
    match escaped? text with
    | some (c, '\'' :: rest) => some (c, rest)
    | _ => none
  | '\'' :: c :: '\'' :: rest => if c = '\'' then none else some (c, rest)
  | _ => none

/-! ## Numbers -/

/-- The base that the characters at the beginning of a number mark, and what follows them. -/
def base : List Char → Nat × List Char
  | '0' :: 'b' :: rest => (2, rest)
  | '0' :: 'o' :: rest => (8, rest)
  | '0' :: 'x' :: rest => (16, rest)
  | text => (10, text)

/-- The types that may stand after a whole number, with their least and their greatest number. -/
def wholeTypes : List (String × Int × Int) :=
  [8, 16, 32, 64].flatMap fun bits =>
    let half : Nat := 1 <<< (bits - 1)
    [("i" ++ Text.natText bits, -half, half - 1), ("u" ++ Text.natText bits, 0, 2 * half - 1)]

/-- Reads the type after a whole number: the least and the greatest number of it, and what follows. -/
def wholeType (text : List Char) : (Int × Int) × List Char :=
  let named := (name? text).bind fun (name, rest) =>
    (wholeTypes.lookup name).map fun range => (range, rest)
  named.getD ((Text.minInt64, Text.maxUInt64), text)

/-- The digits of all bases, with the underscores between them. -/
def isWholeChar (c : Char) : Bool :=
  (Text.digitIn? 16 c).isSome || c = '_'

/-- Reads a whole number after its sign. -/
def wholeNumber? (isNegative : Bool) (text : List Char) : Option (Int × List Char) := do
  let (base, text) := base text
  let digits := text.takeWhile isWholeChar
  if digits.head? = some '_' then none
  let size ← Text.numeral? base (digits.filter (· ≠ '_'))
  let n : Int := if isNegative then -size else size
  let ((least, greatest), rest) := wholeType (text.drop digits.length)
  if least ≤ n && n ≤ greatest then return (n, rest) else none

/-- The characters of decimals, with the underscores between them. -/
def isDecimalChar (c : Char) : Bool :=
  Text.isDigit c || c = 'e' || c = 'E' || c = '.' || c = '+' || c = '-' || c = '_'

/-- A decimal without its underscores; none of them is the first character or follows the point. -/
def dropUnderscores? (mayFollow : Bool) : List Char → Option (List Char)
  | [] => some []
  | c :: rest =>
    if c = '_' then if mayFollow then dropUnderscores? true rest else none
    else
      (dropUnderscores? (c ≠ '.' && (mayFollow || (c ≠ '+' && c ≠ '-'))) rest).map (c :: ·)

/-- Reads a decimal with its sign. -/
def decimal? (text : List Char) : Option (Binary64 × List Char) := do
  let chars := text.takeWhile isDecimalChar
  let x ← Binary64.readDecimal? (← dropUnderscores? false chars)
  let rest := text.drop chars.length
  return (x, (Text.afterFront? ['f', '6', '4'] rest).getD rest)

/-- Reads a number. A whole number that is too great is a decimal. -/
def number? (text : List Char) : Option (Json × List Char) :=
  let sign := (text.take 1).filter fun c => c = '+' || c = '-'
  let unsigned := text.drop sign.length
  let named (name : String) (x : Binary64) : Option (Json × List Char) :=
    (name? unsigned).bind fun (other, rest) =>
      if other = name then some (.num (.real x), rest) else none
  let whole :=
    if (unsigned.takeWhile isDecimalChar).length ≤ (unsigned.takeWhile isWholeChar).length then
      (wholeNumber? (sign = ['-']) unsigned).map fun (n, rest) => (Json.int n, rest)
    else none
  let decimal := (decimal? text).map fun (x, rest) => (Json.num (.real x), rest)
  (whole.or decimal).or
    ((named "inf" (Binary64.infinity.withSign (sign = ['-']))).or
      (named "NaN" Binary64.nan))

/-! ## Values -/

/-- What a name stands for that is a value. -/
def namedValue? (name : String) : Option Json :=
  if name = "true" then some (.bool true)
  else if name = "false" then some (.bool false)
  else if name = "None" then some .null
  else if name = "inf" then some (.num (.real Binary64.infinity))
  else if name = "NaN" then some (.num (.real Binary64.nan))
  else none

/-- What follows a closing parenthesis after blanks. -/
def closeGroup? (text : List Char) : Option (List Char) :=
  match skipSpace? .space text with
  | some (')' :: rest) => some rest
  | _ => none

/-- Whether a name and a colon stand at the beginning of a text. -/
def isNamed (text : List Char) : Bool :=
  ((name? text).bind fun (_, rest) => skipSpace? .space rest).any fun rest =>
    rest.head? = some ':'

mutual

/-- Reads a value with at most so many levels of brackets. Every level and every item takes a character, so
three times as many rounds as there are characters suffice. -/
def value : Nat → Nat → List Char → Option (Json × List Char)
  | 0, _, _ => none
  | fuel + 1, levels, text =>
    match text with
    | '(' :: ')' :: rest => some (.null, rest)
    | '(' :: rest => group fuel levels rest
    | '[' :: rest => if levels = 0 then none else items fuel (levels - 1) ']' [] rest
    | '\x7b' :: rest => if levels = 0 then none else pairs fuel (levels - 1) [] rest
    | '\'' :: _ => (character? text).map fun (c, rest) => (.str (String.singleton c), rest)
    | text =>
      match string? text, name? text with
      | some (s, rest), _ => some (.str s, rest)
      | none, some (name, rest) =>
        match namedValue? name with
        | some value => some (value, rest)
        | none => named fuel levels name rest
      | none, none => number? text

/-- Reads what follows a name: a value that may be absent, a group, or nothing. -/
def named : Nat → Nat → String → List Char → Option (Json × List Char)
  | 0, _, _, _ => none
  | fuel + 1, levels, name, text =>
    match skipSpace? .space text with
    | some ('(' :: rest) =>
      if name = "Some" then
        if levels = 0 then none
        else
          match (skipSpace? .space rest).bind (value fuel (levels - 1)) with
          | none => none
          | some (inner, rest) =>
            match skipSpace? .space rest with
            | some (',' :: rest) => (closeGroup? rest).map fun rest => (inner, rest)
            | some rest => (closeGroup? rest).map fun rest => (inner, rest)
            | none => none
      else group fuel levels rest
    | _ => if name = "Some" then none else some (.null, text)

/-- Reads a record or a tuple after its opening parenthesis. -/
def group : Nat → Nat → List Char → Option (Json × List Char)
  | 0, _, _ => none
  | fuel + 1, levels, text =>
    match skipSpace? .space text with
    | none => none
    | some text =>
      if levels = 0 then none
      else if isNamed text then fields fuel (levels - 1) [] text
      else items fuel (levels - 1) ')' [] text

/-- Reads the fields of a record up to its closing parenthesis. -/
def fields : Nat → Nat → List (String × Json) → List Char → Option (Json × List Char)
  | 0, _, _, _ => none
  | fuel + 1, levels, read, text =>
    match skipSpace? .space text with
    | some (')' :: rest) => some (.object read.reverse, rest)
    | some text =>
      match name? text with
      | none => none
      | some (name, rest) =>
        match skipSpace? .space rest with
        | some (':' :: rest) =>
          match (skipSpace? .space rest).bind (value fuel levels) with
          | none => none
          | some (item, rest) =>
            match skipSpace? .space rest with
            | some (',' :: rest) => fields fuel levels ((name, item) :: read) rest
            | some (')' :: rest) => some (.object ((name, item) :: read).reverse, rest)
            | _ => none
        | _ => none
    | none => none

/-- Reads items up to a closing bracket. -/
def items : Nat → Nat → Char → List Json → List Char → Option (Json × List Char)
  | 0, _, _, _, _ => none
  | fuel + 1, levels, close, read, text =>
    match skipSpace? .space text with
    | none => none
    | some text =>
      if text.head? = some close then some (.arr read.reverse, text.drop 1)
      else
        match value fuel levels text with
        | none => none
        | some (item, rest) =>
          match skipSpace? .space rest with
          | some (',' :: rest) => items fuel levels close (item :: read) rest
          | some (c :: rest) =>
            if c = close then some (.arr (item :: read).reverse, rest) else none
          | _ => none

/-- Reads the pairs of a map up to its closing brace. The names of a map are texts. -/
def pairs : Nat → Nat → List (String × Json) → List Char → Option (Json × List Char)
  | 0, _, _, _ => none
  | fuel + 1, levels, read, text =>
    match skipSpace? .space text with
    | some ('\x7d' :: rest) => some (.object read.reverse, rest)
    | some text =>
      match value fuel levels text with
      | some (.str name, rest) =>
        match skipSpace? .space rest with
        | some (':' :: rest) =>
          match (skipSpace? .space rest).bind (value fuel levels) with
          | none => none
          | some (item, rest) =>
            match skipSpace? .space rest with
            | some (',' :: rest) => pairs fuel levels ((name, item) :: read) rest
            | some ('\x7d' :: rest) => some (.object ((name, item) :: read).reverse, rest)
            | _ => none
        | _ => none
      | _ => none
    | none => none

end

/-- The greatest number of levels of brackets. -/
def maxLevels : Nat := 128

/-- The value of a text. -/
def read? (text : String) : Option Json := do
  let chars ← skipAttributes? (text.length + 1) text.toList
  let (value, rest) ← value (3 * chars.length + 3) maxLevels chars
  if (← skipSpace? .space rest).isEmpty then return value else none

end ScriptedChat.Ron
