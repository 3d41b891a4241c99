import ScriptedChat.Json.Basic
import ScriptedChat.Text.Numeral
import ScriptedChat.Text.Utf8

/-!
# Reading JSON text

A reader takes a value from the beginning of a sequence of bytes and returns the value with the bytes
after it, or a fault. A fault keeps the bytes after the offending one, which gives its place in the
whole text: the line, and the number of bytes of that line up to the offending one.

* `Cause`, `Cause.message`: what can be wrong with a text.
* `Fault`, `ReadError`: a cause with the rest of the text, and a cause with its place.
* `value depth`: reads one value in which arrays and objects are nested at most `depth` levels.
* `read`, `readText`: the value of a whole text, which may stand between blanks.

Whole numbers that fit 64 bits, signed or unsigned, are exact. Every other number is read in two steps:
as many leading digits as fit 64 bits become a floating-point number, which is then multiplied or divided
by a power of ten. Each step rounds once.
-/

namespace ScriptedChat.Json

/-! ## Faults -/

/-- What is wrong with a text. -/
inductive Cause where
  | eofValue
  | eofList
  | eofObject
  | eofString
  | expectedValue
  | expectedWord
  | expectedColon
  | expectedCommaOrListEnd
  | expectedCommaOrObjectEnd
  | keyNotString
  | trailingComma
  | trailingCharacters
  | invalidNumber
  | numberOutOfRange
  | invalidEscape
  | unexpectedEndOfHexEscape
  | loneSurrogate
  | controlCharacter
  | invalidCodePoint
  | nestingTooDeep
  deriving DecidableEq, Repr

def Cause.message : Cause → String
  | .eofValue => "EOF while parsing a value"
  | .eofList => "EOF while parsing a list"
  | .eofObject => "EOF while parsing an object"
  | .eofString => "EOF while parsing a string"
  | .expectedValue => "expected value"
  | .expectedWord => "expected ident"
  | .expectedColon => "expected `:`"
  | .expectedCommaOrListEnd => "expected `,` or `]`"
  | .expectedCommaOrObjectEnd => "expected `,` or `\x7d`"
  | .keyNotString => "key must be a string"
  | .trailingComma => "trailing comma"
  | .trailingCharacters => "trailing characters"
  | .invalidNumber => "invalid number"
  | .numberOutOfRange => "number out of range"
  | .invalidEscape => "invalid escape"
  | .unexpectedEndOfHexEscape => "unexpected end of hex escape"
  | .loneSurrogate => "lone leading surrogate in hex escape"
  | .controlCharacter => "control character (\\u0000-\\u001F) found while parsing a string"
  | .invalidCodePoint => "invalid unicode code point"
  | .nestingTooDeep => "recursion limit exceeded"

/-- A cause, and the bytes after the offending one. -/
structure Fault where
  cause : Cause
  rest : List UInt8
  deriving DecidableEq, Repr

/-- A cause and its place: the line, from one, and the bytes of that line up to the offending one. -/
structure ReadError where
  cause : Cause
  line : Nat
  column : Nat
  deriving DecidableEq, Repr

def ReadError.message (e : ReadError) : String :=
  e.cause.message ++ " at line " ++ Text.natText e.line ++ " column " ++ Text.natText e.column

/-- The place of a fault in the text it was found in. -/
def Fault.locate (whole : List UInt8) (fault : Fault) : ReadError :=
  let consumed := whole.take (whole.length - fault.rest.length)
  { cause := fault.cause
    line := 1 + consumed.count 0x0A
    column := (consumed.reverse.takeWhile (· != 0x0A)).length }

/-- Takes a value from the beginning of a sequence of bytes. -/
abbrev Reader (α : Type) := List UInt8 → Except Fault (α × List UInt8)

/-- The reader's failure. -/
def fail {α : Type} (cause : Cause) (rest : List UInt8) : Except Fault α :=
  .error ⟨cause, rest⟩

/-! ## Blanks and words -/

/-- The blanks between the parts of a value: space, tab, line feed and carriage return. -/
def isSpace (b : UInt8) : Bool :=
  b == 0x20 || b == 0x09 || b == 0x0A || b == 0x0D

/-- The bytes from the first one that is not a blank. -/
def skipSpace (s : List UInt8) : List UInt8 :=
  s.dropWhile isSpace

/-- Reads the rest of one of the words `null`, `true` and `false`. -/
def word (meaning : Json) : List UInt8 → Reader Json
  | [], s => .ok (meaning, s)
  | _ :: _, [] => fail .eofValue []
  | expected :: more, b :: s => if b = expected then word meaning more s else fail .expectedWord s

/-! ## Numbers -/

/-- The decimal digits. -/
def isDigitByte (b : UInt8) : Bool :=
  0x30 ≤ b.toNat && b.toNat ≤ 0x39

/-- The value of a decimal digit. -/
def digitOf (b : UInt8) : Nat :=
  b.toNat - 0x30

/-- Appends digits to a number as long as it fits 64 bits; returns it with the digits left over. -/
def absorb (significand : Nat) : List UInt8 → Nat × List UInt8
  | [] => (significand, [])
  | d :: digits =>
    let next := 10 * significand + digitOf d
    if next < UInt64.size then absorb next digits else (significand, d :: digits)

/-- Divides by `10 ^ n`, at most 308 decimal places at a time. -/
def scaleDown (x : Binary64) (n : Nat) : Binary64 :=
  if n ≤ 308 then x.div (Binary64.powerOfTen n)
  else if x.isZero then x
  else scaleDown (x.div (Binary64.powerOfTen 308)) (n - 308)
termination_by n

/-- The floating-point number for `significand * 10 ^ exponent`, if it is finite. -/
def scaled? (significand : Nat) (exponent : Int) : Option Binary64 :=
  let x := Binary64.ofNat significand
  if exponent < 0 then some (scaleDown x (-exponent).toNat)
  else if x.isZero then some x
  else if 308 < exponent then none
  else
    let y := x.mul (Binary64.powerOfTen exponent.toNat)
    if y.isInfinite then none else some y

/-- The floating-point number with the given parts, read up to `rest`. -/
def real (negative : Bool) (significand : Nat) (exponent : Int) (rest : List UInt8) :
    Except Fault (Json × List UInt8) :=
  match scaled? significand exponent with
  | some x => .ok (.num (.real (x.withSign negative)), rest)
  | none => fail .numberOutOfRange rest

/-- The value of the digits of an exponent, or the digits after the one with which it reaches 2 ^ 31. -/
def exponentValue (value : Nat) : List UInt8 → Nat ⊕ List UInt8
  | [] => .inl value
  | d :: digits =>
    let next := 10 * value + digitOf d
    if next < 0x80000000 then exponentValue next digits else .inr digits

/-- Reads the digits of an exponent; `down` is the sign before them. -/
def exponentDigits (negative : Bool) (significand : Nat) (scale : Int) (down : Bool) :
    Reader Json := fun s =>
  match s with
  | [] => fail .eofValue []
  | b :: r =>
    if ! isDigitByte b then fail .invalidNumber r
    else
      let digits := s.takeWhile isDigitByte
      let rest := s.dropWhile isDigitByte
      match exponentValue 0 digits with
      | .inl e => real negative significand (if down then scale - e else scale + e) rest
      | .inr more =>
        if significand ≠ 0 && ! down then fail .numberOutOfRange (more ++ rest)
        else .ok (.num (.real (Binary64.zero.withSign negative)), rest)

/-- Reads what follows the letter of an exponent: an optional sign and digits. -/
def exponent (negative : Bool) (significand : Nat) (scale : Int) : Reader Json := fun s =>
  match s with
  | 0x2B :: r => exponentDigits negative significand scale false r
  | 0x2D :: r => exponentDigits negative significand scale true r
  | r => exponentDigits negative significand scale false r

/-- Reads what follows the digits of a number: an exponent or nothing. -/
def afterDigits (negative : Bool) (significand : Nat) (scale : Int) : Reader Json := fun s =>
  match s with
  | 0x65 :: r => exponent negative significand scale r
  | 0x45 :: r => exponent negative significand scale r
  | r => real negative significand scale r

/-- Reads what follows the decimal point: one or more digits and perhaps an exponent. -/
def fraction (negative : Bool) (significand : Nat) (scale : Int) : Reader Json := fun s =>
  let digits := s.takeWhile isDigitByte
  if digits.isEmpty then
    match s with
    | [] => fail .eofValue []
    | _ :: r => fail .invalidNumber r
  else
    let (significand', left) := absorb significand digits
    afterDigits negative significand' (scale - (digits.length - left.length : Nat))
      (s.dropWhile isDigitByte)

/-- The number that digits denote when neither a fraction nor an exponent follows. -/
def whole (negative : Bool) (n : Nat) : Number :=
  if ! negative then .int n
  else if n = 0 || 0x8000000000000000 < n then .real ((Binary64.ofNat n).withSign true)
  else .int (-(n : Int))

/-- Reads what follows the first digit of a number, after its sign; `digits` are the digits before the
decimal point. -/
def afterWhole (negative : Bool) (digits : List UInt8) : Reader Json := fun s =>
  let (significand, left) := absorb 0 digits
  match s with
  | 0x2E :: r => fraction negative significand left.length r
  | 0x65 :: r => exponent negative significand left.length r
  | 0x45 :: r => exponent negative significand left.length r
  | r =>
    if left.isEmpty then .ok (.num (whole negative significand), r)
    else real negative significand left.length r

/-- Reads a number after its sign. Only the number zero begins with the digit zero. -/
def number (negative : Bool) : Reader Json := fun s =>
  match s with
  | [] => fail .eofValue []
  | b :: r =>
    if ! isDigitByte b then fail .invalidNumber r
    else if b = 0x30 then
      match r with
      | [] => afterWhole negative [b] []
      | d :: r' => if isDigitByte d then fail .invalidNumber r' else afterWhole negative [b] (d :: r')
    else afterWhole negative (s.takeWhile isDigitByte) (s.dropWhile isDigitByte)

/-! ## Strings -/

/-- Where a reader stands inside a string. -/
inductive StringState where
  /-- between characters -/
  | plain
  /-- after a backslash -/
  | escaped
  /-- inside four hexadecimal digits, of which those in `digits` are read, the last one first; `lead` is
  the leading surrogate of an escape before it -/
  | hex (lead : Option Nat) (digits : List UInt8)
  /-- after the escape of a leading surrogate -/
  | afterLead (lead : Nat)
  /-- after a backslash that follows the escape of a leading surrogate -/
  | escapedAfterLead (lead : Nat)

/-- What the next byte of a string leads to. -/
inductive StringStep where
  /-- the given bytes are read, and the string goes on -/
  | more (state : StringState) (bytes : List UInt8)
  | close
  | wrong (cause : Cause)

/-- The value of a hexadecimal digit. -/
def hexValue? (b : UInt8) : Option Nat :=
  let n := b.toNat
  if 0x30 ≤ n && n ≤ 0x39 then some (n - 0x30)
  else if 0x41 ≤ n && n ≤ 0x46 then some (n - 0x37)
  else if 0x61 ≤ n && n ≤ 0x66 then some (n - 0x57)
  else none

/-- The value of four hexadecimal digits, the last one first. -/
def hexNumber? (digits : List UInt8) : Option Nat :=
  digits.foldr (fun b value => do return 16 * (← value) + (← hexValue? b)) (some 0)

/-- The effect of a complete escape of four hexadecimal digits. A leading surrogate needs a trailing one
after it, and together they are one character. -/
def unicodeEscape (lead : Option Nat) (digits : List UInt8) : StringStep :=
  match hexNumber? digits, lead with
  | none, _ => .wrong .invalidEscape
  | some n, none =>
    if 0xDC00 ≤ n && n ≤ 0xDFFF then .wrong .loneSurrogate
    else if 0xD800 ≤ n && n ≤ 0xDBFF then .more (.afterLead n) []
    else .more .plain (Utf8.encodeChar (Char.ofNat n))
  | some n, some lead =>
    if 0xDC00 ≤ n && n ≤ 0xDFFF then
      .more .plain (Utf8.encodeChar (Char.ofNat (0x10000 + (lead - 0xD800) * 0x400 + (n - 0xDC00))))
    else .wrong .loneSurrogate

/-- The byte that an escape of one letter stands for. -/
def letterEscape? (b : UInt8) : Option UInt8 :=
  if b = 0x22 || b = 0x5C || b = 0x2F then some b
  else if b = 0x62 then some 0x08
  else if b = 0x66 then some 0x0C
  else if b = 0x6E then some 0x0A
  else if b = 0x72 then some 0x0D
  else if b = 0x74 then some 0x09
  else none

/-- Reads the next byte of a string. -/
def stringStep (state : StringState) (b : UInt8) : StringStep :=
  match state with
  | .plain =>
    if b = 0x22 then .close
    else if b = 0x5C then .more .escaped []
    else if b < 0x20 then .wrong .controlCharacter
    else .more .plain [b]
  | .escaped =>
    if b = 0x75 then .more (.hex none []) []
    else match letterEscape? b with
      | some c => .more .plain [c]
      | none => .wrong .invalidEscape
  | .hex lead digits =>
    if digits.length < 3 then .more (.hex lead (b :: digits)) []
    else unicodeEscape lead (b :: digits)
  | .afterLead lead =>
    if b = 0x5C then .more (.escapedAfterLead lead) [] else .wrong .unexpectedEndOfHexEscape
  | .escapedAfterLead lead =>
    if b = 0x75 then .more (.hex (some lead) []) [] else .wrong .unexpectedEndOfHexEscape

/-- Reads a string from the given state to its closing quotation mark; `read` holds the bytes of the
text so far, the last one first. A string that is no text is faulted at its first damaged place, which is
found by counting back from the closing mark, one byte of the text from `start` on for every byte of the
string; escapes are longer than what they stand for, so after them the place is late. -/
def stringFrom (start : List UInt8) (state : StringState) (read : List UInt8) : Reader String
  | [] => fail .eofString []
  | b :: s =>
    match stringStep state b with
    | .more state bytes => stringFrom start state (bytes.reverse ++ read) s
    | .wrong cause => fail cause s
    | .close =>
      match Utf8.decode? read.reverse with
      | some text => .ok (String.ofList text, s)
      | none =>
        let after := s.length + 1 + (Utf8.afterDamage read.reverse).length
        fail .invalidCodePoint (start.drop (start.length - after))

/-- Reads a string after its opening quotation mark. -/
def string : Reader String := fun s => stringFrom s .plain [] s

/-! ## Arrays and objects -/

/-- Reads the items of an array, from the beginning of one. Each item takes at least one byte, so as
many rounds as there are bytes suffice. -/
def items (item : Reader Json) : Nat → List Json → Reader Json
  | 0, _, s => fail .eofList s
  | fuel + 1, read, s => do
    let (v, s) ← item s
    match skipSpace s with
    | [] => fail .eofList []
    | 0x5D :: s => .ok (.arr (v :: read).reverse, s)
    | 0x2C :: s =>
      match skipSpace s with
      | [] => fail .eofValue []
      | 0x5D :: s => fail .trailingComma s
      | s => items item fuel (v :: read) s
    | _ :: s => fail .expectedCommaOrListEnd s

/-- Reads an array after its opening bracket. -/
def array (item : Reader Json) : Reader Json := fun s =>
  match skipSpace s with
  | [] => fail .eofList []
  | 0x5D :: s => .ok (.arr [], s)
  | s => items item s.length [] s

/-- Reads the fields of an object, from after the quotation mark that opens a name. -/
def fields (item : Reader Json) : Nat → List (String × Json) → Reader Json
  | 0, _, s => fail .eofObject s
  | fuel + 1, read, s => do
    let (name, s) ← string s
    match skipSpace s with
    | [] => fail .eofObject []
    | 0x3A :: s =>
      let (v, s) ← item s
      match skipSpace s with
      | [] => fail .eofObject []
      | 0x7D :: s => .ok (object ((name, v) :: read).reverse, s)
      | 0x2C :: s =>
        match skipSpace s with
        | [] => fail .eofValue []
        | 0x22 :: s => fields item fuel ((name, v) :: read) s
        | 0x7D :: s => fail .trailingComma s
        | _ :: s => fail .keyNotString s
      | _ :: s => fail .expectedCommaOrObjectEnd s
    | _ :: s => fail .expectedColon s

/-- Reads an object after its opening brace. -/
def objectBody (item : Reader Json) : Reader Json := fun s =>
  match skipSpace s with
  | [] => fail .eofObject []
  | 0x7D :: s => .ok (.obj [], s)
  | 0x22 :: s => fields item s.length [] s
  | _ :: s => fail .keyNotString s

/-! ## Values -/

/-- Reads a value, given readers for what follows an opening bracket and an opening brace. -/
def valueWith (list record : Reader Json) : Reader Json := fun s =>
  match skipSpace s with
  | [] => fail .eofValue []
  | b :: s =>
    if b = 0x6E then word .null [0x75, 0x6C, 0x6C] s
    else if b = 0x74 then word (.bool true) [0x72, 0x75, 0x65] s
    else if b = 0x66 then word (.bool false) [0x61, 0x6C, 0x73, 0x65] s
    else if b = 0x22 then (string s).map fun (text, s) => (.str text, s)
    else if b = 0x5B then list s
    else if b = 0x7B then record s
    else if b = 0x2D then number true s
    else if isDigitByte b then number false (b :: s)
    else fail .expectedValue s

/-- Reads a value with arrays and objects nested at most `depth` levels. -/
def value : Nat → Reader Json
  | 0 => valueWith (fail .nestingTooDeep) (fail .nestingTooDeep)
  | depth + 1 => valueWith (array (value depth)) (objectBody (value depth))

/-- The greatest number of levels in a text. -/
def maxDepth : Nat := 127

/-- Reads a whole text: one value between blanks. -/
def whole? (s : List UInt8) : Except Fault Json := do
  let (v, rest) ← value maxDepth s
  match skipSpace rest with
  | [] => .ok v
  | _ :: rest => fail .trailingCharacters rest

/-- The value of a text given by its bytes. -/
def read (s : List UInt8) : Except ReadError Json :=
  (whole? s).mapError (Fault.locate s)

/-- The value of a text. -/
def readText (text : String) : Except ReadError Json :=
  read (Utf8.bytes text)

end ScriptedChat.Json
