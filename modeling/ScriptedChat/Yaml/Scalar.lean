import ScriptedChat.Binary64.Decimal
import ScriptedChat.Text.Search

/-!
# What plain scalars mean

A scalar without quotation marks may stand for null, a truth value or a number. A number that begins with
a superfluous zero is text.

* `isNull`, `flag?`, `natural?`: the meaning of a plain scalar as a value of a given kind.
* `isAmbiguous`: whether a text would be read as something else if it were written plainly.
-/

namespace ScriptedChat.Yaml

/-- Whether a plain scalar stands for null. -/
def isNull (text : String) : Bool :=
  ["null", "Null", "NULL", "~"].contains text

/-- The truth value that a plain scalar stands for. -/
def flag? (text : String) : Option Bool :=
  if ["true", "True", "TRUE"].contains text then some true
  else if ["false", "False", "FALSE"].contains text then some false
  else none

/-- A text without a plus sign at its beginning. -/
def dropPlus : List Char → List Char
  | '+' :: text => text
  | text => text

/-- Digits of which the first is a superfluous zero, perhaps after a sign. -/
def hasLeadingZero (text : List Char) : Bool :=
  let digits := match text with
    | '-' :: rest => rest
    | '+' :: rest => rest
    | rest => rest
  match digits with
  | '0' :: c :: rest => (c :: rest).all Text.isDigit
  | _ => false

/-- The number after one of the marks of a base. -/
def marked? (text : List Char) : Option Nat :=
  match text with
  | '0' :: 'x' :: digits => Text.numeral? 16 digits
  | '0' :: 'o' :: digits => Text.numeral? 8 digits
  | '0' :: 'b' :: digits => Text.numeral? 2 digits
  | _ => none

/-- The natural number that a plain scalar stands for. -/
def natural? (text : String) : Option Nat :=
  let digits := dropPlus text.toList
  (marked? digits).or (if hasLeadingZero text.toList then none else Text.readNat? digits)

/-- The magnitude of the negative number that a plain scalar stands for. -/
def negative? (text : String) : Option Nat :=
  match text.toList with
  | '-' :: digits =>
    (marked? digits).or (if hasLeadingZero digits then none else Text.readNat? digits)
  | _ => none

/-- The names of infinities and of what is no number. -/
def realNames : List String :=
  [".inf", ".Inf", ".INF", "+.inf", "+.Inf", "+.INF", "-.inf", "-.Inf", "-.INF",
   ".nan", ".NaN", ".NAN"]

/-- Whether a plain scalar stands for a floating-point number. -/
def isReal (text : String) : Bool :=
  realNames.contains text
    || ! hasLeadingZero text.toList
      && (Binary64.readDecimal? text.toList).any fun x => ! x.isInfinite && ! x.isNaN

/-- Whether a text would be read as something else if it were written plainly. -/
def isAmbiguous (text : String) : Bool :=
  text = "" || isNull text || (flag? text).isSome || hasLeadingZero text.toList
    || (natural? text).any (· < 1 <<< 128) || (negative? text).any (· ≤ 1 <<< 127) || isReal text

end ScriptedChat.Yaml
