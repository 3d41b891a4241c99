import ScriptedChat.Binary64.Decimal
import ScriptedChat.Json.Basic
import ScriptedChat.Text.Numeral
import ScriptedChat.Text.Search

/-!
# Reading JSON5

JSON5 is JSON with some of the freedom of a programming language: comments, commas at the end, names
without quotation marks, single quotation marks, and more ways to write a number.

* `skipSpace`: skips blanks and comments.
* `string?`, `number?`: read texts and numbers.
* `value`: reads a value.
* `read?`: the value of a text.
-/

namespace ScriptedChat.Json5

/-! ## Blanks -/

/-- Characters that end a line. -/
def isBreak (c : Char) : Bool :=
  c = '\n' || c = '\r' || c = '\u2028' || c = '\u2029'

/-- Blanks: some control characters, the mark of the byte order, and all kinds of spaces. -/
def isSpace (c : Char) : Bool :=
  let n := c.toNat
  isBreak c || n == 0x09 || n == 0x0B || n == 0x0C || n == 0x20 || n == 0xA0 || n == 0xFEFF
    || n == 0x1680 || (0x2000 ≤ n && n ≤ 0x200A) || n == 0x202F || n == 0x205F || n == 0x3000

/-- Where a reader stands between values. -/
inductive SpaceState where
  | space
  | line
  | block

/-- Skips blanks and comments. A comment between slashes and asterisks must have an end. -/
def skipSpace? (state : SpaceState) : List Char → Option (List Char)
  | [] => match state with
    | .block => none
    | _ => some []
  | c :: rest =>
    match state with
    | .line => skipSpace? (if isBreak c then .space else .line) rest
    | .block =>
      match c, rest with
      | '*', '/' :: rest => skipSpace? .space rest
      | _, rest => skipSpace? .block rest
    | .space =>
      if isSpace c then skipSpace? .space rest
      else
        match c, rest with
        | '/', '/' :: rest => skipSpace? .line rest
        | '/', '*' :: rest => skipSpace? .block rest
        | c, rest => some (c :: rest)

/-- What follows a text after blanks and comments; a comment without an end is no comment. -/
def skipSpace (text : List Char) : List Char :=
  (skipSpace? .space text).getD text

/-! ## Texts -/

/-- The character that an escape of one letter stands for. All but digits and line ends stand for
themselves. -/
def escape? (c : Char) : Option Char :=
  match c with
  | 'b' => some '\x08'
  | 'f' => some '\x0c'
  | 'n' => some '\n'
  | 'r' => some '\r'
  | 't' => some '\t'
  | 'v' => some '\x0b'
  | c => if Text.isDigit c then none else some c

/-- The number that exactly so many digits at the beginning of a text denote. -/
def hexNumber? (width : Nat) (text : List Char) : Option Nat :=
  if (text.take width).length = width then Text.numeral? 16 (text.take width) else none

/-- Reads the character that four digits stand for; a leading surrogate needs a trailing one after it. -/
def unicode? (text : List Char) : Option (Char × List Char) := do
  let n ← hexNumber? 4 text
  let rest := text.drop 4
  if 0xD800 ≤ n && n < 0xDC00 then
    let after ← Text.afterFront? ['\\', 'u'] rest
    let trail ← hexNumber? 4 after
    if 0xDC00 ≤ trail && trail < 0xE000 then
      let c ← Text.charOf? (0x10000 + (n - 0xD800) * 0x400 + (trail - 0xDC00))
      return (c, after.drop 4)
    else none
  else return (← Text.charOf? n, rest)

/-- Reads what follows a backslash: the characters that it stands for. -/
def escaped? : List Char → Option (List Char × List Char)
  | [] => none
  | '\r' :: '\n' :: rest => some ([], rest)
  | '0' :: rest => if rest.head?.any Text.isDigit then none else some (['\x00'], rest)
  | 'x' :: rest => do
    let c ← (hexNumber? 2 rest).bind Text.charOf?
    return ([c], rest.drop 2)
  | 'u' :: rest => (unicode? rest).map fun (c, rest) => ([c], rest)
  | c :: rest => if isBreak c then some ([], rest) else (escape? c).map fun e => ([e], rest)

/-- Reads a text up to its closing quotation mark; every round takes a character. -/
def stringFrom : Nat → Char → List Char → List Char → Option (String × List Char)
  | 0, _, _, _ => none
  | fuel + 1, mark, read, text =>
    match text with
    | [] => none
    | c :: rest =>
      if c = mark then some (String.ofList read.reverse, rest)
      else if c = '\\' then
        match escaped? rest with
        | some (chars, rest) => stringFrom fuel mark (chars.reverse ++ read) rest
        | none => none
      else if isBreak c then none
      else stringFrom fuel mark (c :: read) rest

/-- Reads a text. -/
def string? : List Char → Option (String × List Char)
  | '"' :: text => stringFrom (text.length + 1) '"' [] text
  | '\'' :: text => stringFrom (text.length + 1) '\'' [] text
  | _ => none

/-! ## Names -/

/-- The characters with which a name begins. Beyond ASCII every character but a blank counts as a
letter. -/
def startsName (c : Char) : Bool :=
  ('a' ≤ c && c ≤ 'z') || ('A' ≤ c && c ≤ 'Z') || c = '$' || c = '_'
    || (0x80 ≤ c.toNat && ! isSpace c)

/-- Reads a name without quotation marks; as many rounds as there are characters suffice. -/
def nameFrom : Nat → List Char → List Char → Option (String × List Char)
  | 0, _, _ => none
  | fuel + 1, read, text =>
    match text with
    | '\\' :: 'u' :: rest => do
      let c ← (hexNumber? 4 rest).bind Text.charOf?
      nameFrom fuel (c :: read) (rest.drop 4)
    | c :: rest =>
      if startsName c || (! read.isEmpty && Text.isDigit c) then nameFrom fuel (c :: read) rest
      else if read.isEmpty then none
      else some (String.ofList read.reverse, c :: rest)
    | [] => if read.isEmpty then none else some (String.ofList read.reverse, [])

/-- Reads the name of a field. -/
def name? (text : List Char) : Option (String × List Char) :=
  match string? text with
  | some read => some read
  | none => nameFrom (text.length + 1) [] text

/-! ## Numbers -/

/-- The exponent at the beginning of a text, and what follows; without one it is empty. -/
def takeExponent (text : List Char) : List Char × List Char :=
  match text with
  | e :: rest =>
    if e = 'e' || e = 'E' then
      let sign := (rest.take 1).filter fun c => c = '+' || c = '-'
      let digits := (rest.drop sign.length).takeWhile Text.isDigit
      if digits.isEmpty then ([], text)
      else (e :: sign ++ digits, rest.drop (sign.length + digits.length))
    else ([], text)
  | [] => ([], [])

/-- The digits at the beginning of a number; a zero stands alone. -/
def takeWhole (text : List Char) : List Char :=
  match text with
  | '0' :: _ => ['0']
  | text => text.takeWhile Text.isDigit

/-- The characters of a decimal without a sign, and what follows. There is a digit on one side of the
point. -/
def takeDecimal? (text : List Char) : Option (List Char × List Char) :=
  let whole := takeWhole text
  match text.drop whole.length with
  | '.' :: rest =>
    let fraction := rest.takeWhile Text.isDigit
    let (exponent, rest) := takeExponent (rest.drop fraction.length)
    if whole.isEmpty && fraction.isEmpty then none
    else some (whole ++ '.' :: fraction ++ exponent, rest)
  | rest =>
    let (exponent, rest) := takeExponent rest
    if whole.isEmpty then none else some (whole ++ exponent, rest)

/-- The number that the characters of a decimal denote: a whole number of 64 bits with a sign, if there is
neither a point nor an exponent. -/
def decimalNumber? (chars : List Char) : Option Json :=
  if chars.any fun c => c = '.' || c = 'e' || c = 'E' then
    ((Binary64.readDecimal? chars).filter (! ·.isInfinite)).map fun x => .num (.real x)
  else (Text.readInt64? chars).map .int

/-- Reads a number in base sixteen, of at most 32 bits, after its mark. -/
def hexInt? (text : List Char) : Option (Json × List Char) := do
  let digits := text.takeWhile fun c => (Text.digitIn? 16 c).isSome
  let n ← (Text.numeral? 16 digits).filter (· < UInt32.size)
  return (.nat n, text.drop digits.length)

/-- Reads a number. Only a minus sign may stand before the names of infinity and of what is no number, and
no sign before a number in base sixteen. -/
def number? (text : List Char) : Option (Json × List Char) :=
  let sign := (text.take 1).filter fun c => c = '+' || c = '-'
  let rest := text.drop sign.length
  let named (name : String) : Option (Json × List Char) := do
    let after ← Text.afterFront? name.toList rest
    if sign = ['+'] then none
    return (.num (.real (← Binary64.readDecimal? (sign ++ name.toList))), after)
  match rest with
  | 'I' :: _ => named "Infinity"
  | 'N' :: _ => named "NaN"
  | '0' :: 'x' :: rest => if sign.isEmpty then hexInt? rest else none
  | '0' :: 'X' :: rest => if sign.isEmpty then hexInt? rest else none
  | rest => do
    let (chars, rest) ← takeDecimal? rest
    return (← decimalNumber? (sign ++ chars), rest)

/-! ## Values -/

/-- Reads a value that is neither an array nor an object. -/
def scalar? (text : List Char) : Option (Json × List Char) :=
  match string? text with
  | some (s, rest) => some (.str s, rest)
  | none =>
    let word (name : String) (meaning : Json) : Option (Json × List Char) :=
      (Text.afterFront? name.toList text).map fun rest => (meaning, rest)
    ((word "null" .null).or (word "true" (.bool true))).or
      ((word "false" (.bool false)).or (number? text))

mutual

/-- Reads a value. Every level of brackets and every item takes a character, so as many rounds as there
are characters suffice. -/
def value : Nat → List Char → Option (Json × List Char)
  | 0, _ => none
  | fuel + 1, text =>
    match skipSpace text with
    | '[' :: rest =>
      match skipSpace rest with
      | ']' :: rest => some (.arr [], rest)
      | rest => items fuel [] rest
    | '\x7b' :: rest =>
      match skipSpace rest with
      | '\x7d' :: rest => some (.obj [], rest)
      | rest => fields fuel [] rest
    | text => scalar? text

/-- Reads items up to the closing bracket. -/
def items : Nat → List Json → List Char → Option (Json × List Char)
  | 0, _, _ => none
  | fuel + 1, read, text =>
    match value fuel text with
    | none => none
    | some (item, rest) =>
      match skipSpace rest with
      | ']' :: rest => some (.arr (item :: read).reverse, rest)
      | ',' :: rest =>
        match skipSpace rest with
        | ']' :: rest => some (.arr (item :: read).reverse, rest)
        | rest => items fuel (item :: read) rest
      | _ => none

/-- Reads fields up to the closing brace. -/
def fields : Nat → List (String × Json) → List Char → Option (Json × List Char)
  | 0, _, _ => none
  | fuel + 1, read, text =>
    match name? text with
    | none => none
    | some (name, rest) =>
      match skipSpace rest with
      | ':' :: rest =>
        match value fuel rest with
        | none => none
        | some (item, rest) =>
          match skipSpace rest with
          | '\x7d' :: rest => some (.object ((name, item) :: read).reverse, rest)
          | ',' :: rest =>
            match skipSpace rest with
            | '\x7d' :: rest => some (.object ((name, item) :: read).reverse, rest)
            | rest => fields fuel ((name, item) :: read) rest
          | _ => none
      | _ => none

end

/-- The value of a text. -/
def read? (text : String) : Option Json := do
  let chars := text.toList
  let (value, rest) ← value (chars.length + 1) chars
  if (skipSpace rest).isEmpty then return value else none

end ScriptedChat.Json5
