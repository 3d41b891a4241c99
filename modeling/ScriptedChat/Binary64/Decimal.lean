import ScriptedChat.Binary64.Basic
import ScriptedChat.Text.Numeral

/-!
# Reading decimals

* `readDecimal? text`: the value that a decimal denotes: an optional sign, digits with or without a point
  among them, and an optional exponent; or one of the names of infinity and of what is no number.
-/

namespace ScriptedChat.Binary64

/-- The names of infinity, in lower case. -/
def infinityNames : List (List Char) := ["inf".toList, "infinity".toList]

/-- The name of what is no number, in lower case. -/
def nanName : List Char := "nan".toList

/-- The value of an exponent after its mark. -/
def readExponent? : List Char → Option Int
  | [] => some 0
  | c :: text => if c = 'e' || c = 'E' then Text.readInt? text else none

/-- The value of digits before and after a point, and of what follows them. -/
def ofDigits? (whole fraction rest : List Char) : Option Binary64 := do
  let digits := whole ++ fraction
  if digits.isEmpty then none
  else
    return ofDecimal (Text.digitsValue digits) digits.length
      ((← readExponent? rest) - (fraction.length : Int))

/-- The value that a decimal without a sign denotes. -/
def readUnsigned? (text : List Char) : Option Binary64 :=
  let lower := text.map Char.toLower
  if infinityNames.contains lower then some infinity
  else if lower = nanName then some nan
  else
    let whole := text.takeWhile Text.isDigit
    match text.dropWhile Text.isDigit with
    | '.' :: rest => ofDigits? whole (rest.takeWhile Text.isDigit) (rest.dropWhile Text.isDigit)
    | rest => ofDigits? whole [] rest

/-- The value that a decimal denotes. -/
def readDecimal? : List Char → Option Binary64
  | '-' :: text => (readUnsigned? text).map (withSign true)
  | '+' :: text => readUnsigned? text
  | text => readUnsigned? text

end ScriptedChat.Binary64
