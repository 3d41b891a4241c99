import ScriptedChat.Text.Search
import ScriptedChat.Yaml.Basic
import ScriptedChat.Yaml.Scalar

/-!
# Writing YAML scalars

A text is written in the first of these forms in which it can be read back: as it is; between single
quotation marks; between double quotation marks, with escapes. A text of several lines is written as a
literal block.

* `styleOf`: the form in which a text is written.
* `singleQuoted`, `doubleQuoted`, `literal`: the forms besides the text itself.
* `scalar`: a text after the colon of its key, with the line end after it.
-/

namespace ScriptedChat.Yaml

/-! ## Characters -/

/-- Characters that end a line. -/
def endsLine (c : Char) : Bool :=
  ['\n', '\r', '\u0085', '\u2028', '\u2029'].contains c

/-- Spaces, tabs, line ends and the zero character separate words from marks. -/
def separates (c : Char) : Bool :=
  c = ' ' || c = '\t' || c.toNat = 0 || endsLine c

/-- Characters that can be written as they are. -/
def isPrintable (c : Char) : Bool :=
  let n := c.toNat
  n == 0x0A || (0x20 ≤ n && n ≤ 0x7E) || (0xA0 ≤ n && n ≤ 0xD7FF)
    || (0xE000 ≤ n && n ≤ 0xFFFD && n ≠ 0xFEFF) || 0x10000 ≤ n

/-- The characters that mean something at the beginning of a scalar. -/
def opensMarkup (c : Char) : Bool :=
  "#,[]\x7b\x7d&*!|>'\"%@\x60".toList.contains c

/-! ## The form of a text -/

/-- Whether two neighbours in a text fulfil a condition. -/
def anyPair (p : Char → Char → Bool) (text : List Char) : Bool :=
  (text.zip (text.drop 1)).any fun (a, b) => p a b

/-- Whether a text contains something that has a meaning in block style. -/
def hasMarkup (text : List Char) : Bool :=
  (Text.afterFront? ['-', '-', '-'] text).isSome || (Text.afterFront? ['.', '.', '.'] text).isSome
    || text.head?.any opensMarkup
    || (text.head?.any fun c => c = '?' || c = '-') && (text.drop 1).head?.all separates
    || anyPair (fun a b => a = ':' && separates b) text || text.getLast? = some ':'
    || anyPair (fun a b => separates a && b = '#') text

/-- Whether a text has a space or a line end at one of its ends. -/
def hasLooseEnd (text : List Char) : Bool :=
  let isLoose (c : Char) : Bool := c = ' ' || endsLine c
  text.head?.any isLoose || text.getLast?.any isLoose

/-- Whether a space stands directly before a line end. -/
def hasSpaceBreak (text : List Char) : Bool :=
  anyPair (fun a b => a = ' ' && endsLine b) text

/-- Whether a space stands directly after a line end. -/
def hasBreakSpace (text : List Char) : Bool :=
  anyPair (fun a b => endsLine a && b = ' ') text

def allowsLiteral (text : List Char) : Bool :=
  text.all isPrintable && ! hasSpaceBreak text && text.getLast? ≠ some ' '

def allowsSingle (text : List Char) : Bool :=
  text.all isPrintable && ! hasSpaceBreak text && ! hasBreakSpace text

def allowsPlain (text : List Char) : Bool :=
  allowsSingle text && ! text.any endsLine && ! hasLooseEnd text && ! hasMarkup text

/-- The form in which a text is written. -/
def styleOf (text : String) : Style :=
  let chars := text.toList
  if chars.contains '\n' then if allowsLiteral chars then .literal else .double
  else if ! isAmbiguous text && allowsPlain chars then .plain
  else if allowsSingle chars then .single
  else .double

/-! ## The forms -/

/-- The indentation of what belongs to a scalar and stands on lines of its own. -/
def margin : List Char := [' ', ' ', ' ', ' ']

/-- A text with the margin after its line ends; `atStart` tells whether a line begins. -/
def indented (atStart : Bool) : List Char → List Char
  | [] => []
  | c :: text =>
    if endsLine c then c :: indented true text
    else (if atStart then margin else []) ++ c :: indented false text

/-- A text between single quotation marks, which are doubled inside. -/
def singleQuoted (text : List Char) : List Char :=
  let doubled := text.flatMap fun c => if c = '\'' then ['\'', '\''] else [c]
  '\'' :: (indented false doubled ++ (if text.getLast?.any endsLine then margin else []) ++ ['\''])

/-- A digit in base sixteen, in upper case. -/
def upperHex (d : Nat) : Char :=
  if d < 10 then Char.ofNat (48 + d) else Char.ofNat (55 + d)

/-- A number in base sixteen with the given number of digits. -/
def hexDigits : Nat → Nat → List Char
  | 0, _ => []
  | width + 1, n => hexDigits width (n / 16) ++ [upperHex (n % 16)]

/-- The letters of the short escapes. -/
def shortEscapes : List (Nat × Char) :=
  [(0x00, '0'), (0x07, 'a'), (0x08, 'b'), (0x09, 't'), (0x0A, 'n'), (0x0B, 'v'), (0x0C, 'f'),
   (0x0D, 'r'), (0x1B, 'e'), (0x22, '"'), (0x5C, '\\'), (0x85, 'N'), (0xA0, '_'), (0x2028, 'L'),
   (0x2029, 'P')]

/-- A character between double quotation marks. -/
def escapeChar (c : Char) : List Char :=
  if isPrintable c && ! endsLine c && c ≠ '"' && c ≠ '\\' then [c]
  else
    match shortEscapes.lookup c.toNat with
    | some letter => ['\\', letter]
    | none =>
      if c.toNat ≤ 0xFF then '\\' :: 'x' :: hexDigits 2 c.toNat
      else if c.toNat ≤ 0xFFFF then '\\' :: 'u' :: hexDigits 4 c.toNat
      else '\\' :: 'U' :: hexDigits 8 c.toNat

/-- A text between double quotation marks. -/
def doubleQuoted (text : List Char) : List Char :=
  '"' :: (text.flatMap escapeChar ++ ['"'])

/-- What the head of a literal says about its beginning and its end. -/
def literalHead (text : List Char) : List Char :=
  let start := if text.head?.any fun c => c = ' ' || endsLine c then ['2'] else []
  let ending := match text.reverse with
    | [] => ['-']
    | [c] => if endsLine c then ['+'] else ['-']
    | c :: d :: _ => if ! endsLine c then ['-'] else if endsLine d then ['+'] else []
  start ++ ending

/-- A text as a literal block, with the line end after it: its own last one, if it has one. -/
def literal (text : List Char) : List Char :=
  '|' :: (literalHead text ++ '\n' :: indented true text
    ++ if text.getLast?.any endsLine then [] else ['\n'])

/-- A text after the colon of its key, with the line end after it. -/
def scalar (text : String) : String :=
  let chars := text.toList
  String.ofList <| match styleOf text with
    | .plain => chars ++ ['\n']
    | .single => singleQuoted chars ++ ['\n']
    | .double => doubleQuoted chars ++ ['\n']
    | _ => literal chars

end ScriptedChat.Yaml
