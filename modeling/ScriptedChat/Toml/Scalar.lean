import ScriptedChat.Binary64.Decimal
import ScriptedChat.Json.Basic
import ScriptedChat.Text.Search

/-!
# TOML scalars

Texts, numbers, truth values and dates. Texts stand between quotation marks, single ones or, with escapes,
double ones; between three of them they may have several lines. A date is read as its text in the usual
form.

* `string?`: reads a text.
* `number?`: the number that characters denote.
* `moment?`: the date or time that characters denote, as a text.
* `scalar?`: reads a scalar.
-/

namespace ScriptedChat.Toml

/-! ## Characters -/

def isGap (c : Char) : Bool := c = ' ' || c = '\t'

def dropGap (text : List Char) : List Char := text.dropWhile isGap

/-- The characters of a name that stands without quotation marks. -/
def isNameChar (c : Char) : Bool :=
  ('a' ≤ c && c ≤ 'z') || ('A' ≤ c && c ≤ 'Z') || Text.isDigit c || c = '_' || c = '-'

/-- The characters that texts and comments consist of: all but the control characters, of which only the
tab is one. -/
def isTextChar (c : Char) : Bool :=
  c = '\t' || (0x20 ≤ c.toNat && c.toNat ≠ 0x7F)

/-- What follows the line end at the beginning of a text. -/
def afterBreak? : List Char → Option (List Char)
  | '\n' :: text => some text
  | '\r' :: '\n' :: text => some text
  | _ => none

/-! ## Texts -/

/-- Where a reader stands inside a text with escapes. -/
inductive TextState where
  | text
  | escaped
  /-- inside an escape with so many more digits; the digits so far, the last one first -/
  | hex (left : Nat) (digits : List Char)
  /-- after a backslash and gaps: a line end must follow -/
  | joining
  /-- after a backslash at the end of a line: gaps and line ends are passed over -/
  | joined

/-- The character that an escape of one letter stands for. -/
def escape? (c : Char) : Option Char :=
  match c with
  | 'b' => some '\x08'
  | 't' => some '\t'
  | 'n' => some '\n'
  | 'f' => some '\x0c'
  | 'r' => some '\r'
  | 'e' => some '\x1b'
  | '"' => some '"'
  | '\\' => some '\\'
  | _ => none

/-- The number of digits in an escape of a character by its number. -/
def escapeWidth? (c : Char) : Option Nat :=
  match c with
  | 'x' => some 2
  | 'u' => some 4
  | 'U' => some 8
  | _ => none

/-- The end of a text between three quotation marks: up to two more marks belong to the text. Returns them
with what follows. -/
def longEnd? (mark : Char) : List Char → Option (List Char × List Char)
  | a :: b :: c :: text =>
    if a = mark && b = mark && c = mark then
      let extra := (text.take 2).takeWhile (· = mark)
      some (extra, text.drop extra.length)
    else none
  | _ => none

/-- Whether a line ends at the beginning of a text, which begins with a carriage return or not. -/
def breaksHere (c : Char) (rest : List Char) : Bool :=
  c = '\n' || (c = '\r' && rest.head? = some '\n')

/-- Reads a text with escapes up to its closing quotation mark, or three of them; `read` is the text so
far, the last character first. -/
def escapedText (isLong : Bool) (state : TextState) (read : List Char) :
    List Char → Option (String × List Char)
  | [] => none
  | c :: rest =>
    match state with
    | .escaped =>
      match escapeWidth? c, escape? c with
      | some width, _ => escapedText isLong (.hex width []) read rest
      | none, some e => escapedText isLong .text (e :: read) rest
      | none, none =>
        if ! isLong then none
        else if isGap c then escapedText isLong .joining read rest
        else if breaksHere c rest then escapedText isLong .joined read rest
        else none
    | .hex left digits =>
      if 1 < left then escapedText isLong (.hex (left - 1) (c :: digits)) read rest
      else
        match (Text.numeral? 16 (c :: digits).reverse).bind Text.charOf? with
        | some e => escapedText isLong .text (e :: read) rest
        | none => none
    | .joining =>
      if isGap c then escapedText isLong .joining read rest
      else if breaksHere c rest then escapedText isLong .joined read rest
      else none
    | state =>
      let skips := match state with
        | .joined => isGap c || breaksHere c rest
        | _ => false
      if skips then escapedText isLong .joined read rest
      else if c = '\\' then escapedText isLong .escaped read rest
      else if c = '"' then
        if ! isLong then some (String.ofList read.reverse, rest)
        else
          match longEnd? '"' (c :: rest) with
          | some (extra, rest) => some (String.ofList (extra ++ read).reverse, rest)
          | none => escapedText isLong .text (c :: read) rest
      else if isTextChar c || (isLong && breaksHere c rest) then
        escapedText isLong .text (c :: read) rest
      else none

/-- Reads a text without escapes up to three single quotation marks. -/
def longLiteral (read : List Char) : List Char → Option (String × List Char)
  | [] => none
  | c :: rest =>
    match longEnd? '\'' (c :: rest) with
    | some (extra, rest) => some (String.ofList (extra ++ read).reverse, rest)
    | none =>
      if isTextChar c || breaksHere c rest then longLiteral (c :: read) rest else none

/-- Reads a text on one line. -/
def shortString? : List Char → Option (String × List Char)
  | '"' :: text => escapedText false .text [] text
  | '\'' :: text =>
    let inside := text.takeWhile (· ≠ '\'')
    match text.dropWhile (· ≠ '\'') with
    | _ :: rest => if inside.all isTextChar then some (String.ofList inside, rest) else none
    | [] => none
  | _ => none

/-- A text without the line end at its beginning. -/
def dropFirstBreak (text : List Char) : List Char :=
  (afterBreak? text).getD text

/-- Reads a text. -/
def string? : List Char → Option (String × List Char)
  | '"' :: '"' :: '"' :: text => escapedText true .text [] (dropFirstBreak text)
  | '\'' :: '\'' :: '\'' :: text => longLiteral [] (dropFirstBreak text)
  | text => shortString? text

/-! ## Numbers -/

/-- Digits without the underscores between them; an underscore must stand between two digits. -/
def dropUnderscores (isDigit : Char → Bool) : List Char → Option (List Char)
  | [] => some []
  | '_' :: _ => none
  | c :: '_' :: d :: text =>
    if isDigit c && isDigit d then (dropUnderscores isDigit (d :: text)).map (c :: ·) else none
  | c :: text => (dropUnderscores isDigit text).map (c :: ·)

/-- The number that digits denote in a base. -/
def markedInt? (base : Nat) (digits : List Char) : Option Int := do
  let digits ← dropUnderscores (fun c => (Text.digitIn? base c).isSome) digits
  let n ← Text.numeral? base digits
  if (n : Int) ≤ Text.maxInt64 then some n else none

/-- Whether digits have a superfluous zero at their beginning. -/
def hasLeadingZero : List Char → Bool
  | '0' :: c :: _ => Text.isDigit c
  | _ => false

/-- A floating-point number, which is finite where digits denote it. -/
def finite? (whole : List Char) : Option Json :=
  ((Binary64.readDecimal? whole).filter (! ·.isInfinite)).map fun x => .num (.real x)

/-- The floating-point number that characters denote. Digits must stand on both sides of the point. -/
def real? (unsigned whole : List Char) : Option Json :=
  if unsigned = "inf".toList || unsigned = "nan".toList then
    (Binary64.readDecimal? whole).map fun x => .num (.real x)
  else
    let digits := unsigned.takeWhile Text.isDigit
    let fraction := match unsigned.dropWhile Text.isDigit with
      | '.' :: more => more.head?.any Text.isDigit
      | _ => true
    if digits.isEmpty || hasLeadingZero digits || ! fraction then none
    else if unsigned.all fun c => Text.isDigit c || ['.', 'e', 'E', '+', '-'].contains c then
      finite? whole
    else none

/-- The number that characters denote. -/
def number? (chars : List Char) : Option Json :=
  match chars with
  | '0' :: 'x' :: digits => (markedInt? 16 digits).map .int
  | '0' :: 'o' :: digits => (markedInt? 8 digits).map .int
  | '0' :: 'b' :: digits => (markedInt? 2 digits).map .int
  | _ => do
    let whole ← dropUnderscores Text.isDigit chars
    let unsigned := match whole with
      | '-' :: rest => rest
      | '+' :: rest => rest
      | rest => rest
    if hasLeadingZero unsigned then none
    else if unsigned.all Text.isDigit then (Text.readInt64? whole).map .int
    else real? unsigned whole

/-! ## Dates and times -/

/-- Takes a number of exactly so many digits between two bounds, with its digits. -/
def takeNumber? (width low high : Nat) (text : List Char) : Option (List Char × List Char) :=
  let digits := text.take width
  match Text.readNat? digits with
  | some n =>
    if digits.length = width && low ≤ n && n ≤ high then some (digits, text.drop width) else none
  | none => none

/-- Takes a character. -/
def takeChar? (c : Char) : List Char → Option (List Char)
  | d :: text => if d = c then some text else none
  | [] => none

/-- The number of days in a month. -/
def daysIn (year month : Nat) : Nat :=
  if month = 2 then
    if year % 4 = 0 && (year % 100 ≠ 0 || year % 400 = 0) then 29 else 28
  else if [4, 6, 9, 11].contains month then 30
  else 31

/-- Takes a date. -/
def takeDate? (text : List Char) : Option (List Char × List Char) := do
  let (year, text) ← takeNumber? 4 0 9999 text
  let (month, text) ← takeNumber? 2 1 12 (← takeChar? '-' text)
  let most := daysIn (Text.digitsValue year) (Text.digitsValue month)
  let (day, text) ← takeNumber? 2 1 most (← takeChar? '-' text)
  return (year ++ '-' :: month ++ '-' :: day, text)

/-- The fraction of a second, of which nine digits count, without zeros at its end but for the first. -/
def fraction (digits : List Char) : List Char :=
  let significant := ((digits.take 9).reverse.dropWhile (· = '0')).reverse
  if significant.isEmpty then ['0'] else significant

/-- Takes the seconds of a time, which may be absent. -/
def takeSeconds? : List Char → Option (List Char × List Char)
  | ':' :: text => do
    let (second, text) ← takeNumber? 2 0 60 text
    match text with
    | '.' :: rest =>
      let digits := rest.takeWhile Text.isDigit
      if digits.isEmpty then none
      else some (':' :: second ++ '.' :: fraction digits, rest.dropWhile Text.isDigit)
    | rest => some (':' :: second, rest)
  | text => some ([], text)

/-- Takes a time of day. -/
def takeTime? (text : List Char) : Option (List Char × List Char) := do
  let (hour, text) ← takeNumber? 2 0 23 text
  let (minute, text) ← takeNumber? 2 0 59 (← takeChar? ':' text)
  let (seconds, text) ← takeSeconds? text
  return (hour ++ ':' :: minute ++ seconds, text)

/-- The distance of a time from universal time. A distance of nothing is positive. -/
def offset? : List Char → Option (List Char)
  | [] => some []
  | ['Z'] => some ['Z']
  | ['z'] => some ['Z']
  | sign :: text => do
    let (hour, text) ← takeNumber? 2 0 23 text
    let (minute, text) ← takeNumber? 2 0 59 (← takeChar? ':' text)
    let isZero := (hour ++ minute).all (· = '0')
    if text ≠ [] then none
    else if sign = '+' || (sign = '-' && isZero) then some ('+' :: hour ++ ':' :: minute)
    else if sign = '-' then some ('-' :: hour ++ ':' :: minute)
    else none

/-- The date, the time or both that characters denote, as a text. -/
def moment? (chars : List Char) : Option String :=
  match takeDate? chars with
  | some (date, []) => some (String.ofList date)
  | some (date, separator :: text) => do
    if ! ['T', 't', ' '].contains separator then none
    let (time, text) ← takeTime? text
    return String.ofList (date ++ 'T' :: time ++ (← offset? text))
  | none =>
    match takeTime? chars with
    | some (time, []) => some (String.ofList time)
    | _ => none

/-! ## Scalars -/

/-- A character that can stand in a number, a truth value or a date. -/
def isBareChar (c : Char) : Bool :=
  isNameChar c || c = '.' || c = '+' || c = ':'

/-- Takes the characters of a scalar without quotation marks. A single space may part a date and a time. -/
def takeBare (text : List Char) : List Char × List Char :=
  let chars := text.takeWhile isBareChar
  match takeDate? chars, text.dropWhile isBareChar with
  | some (_, []), ' ' :: c :: rest =>
    if Text.isDigit c then
      (chars ++ ' ' :: (c :: rest).takeWhile isBareChar, (c :: rest).dropWhile isBareChar)
    else (chars, ' ' :: c :: rest)
  | _, rest => (chars, rest)

/-- What a scalar without quotation marks means. -/
def meaning? (chars : List Char) : Option Json :=
  if chars = "true".toList then some (.bool true)
  else if chars = "false".toList then some (.bool false)
  else ((moment? chars).map Json.str).or (number? chars)

/-- Reads a scalar. -/
def scalar? (text : List Char) : Option (Json × List Char) :=
  match string? text with
  | some (s, rest) => some (.str s, rest)
  | none =>
    let (chars, rest) := takeBare text
    (meaning? chars).map fun value => (value, rest)

end ScriptedChat.Toml
