import ScriptedChat.Binary64.Shortest
import ScriptedChat.Json.Basic

/-!
# Compact JSON text

A value is written without any blank between its parts. Inside a string only the quotation mark, the
backslash and the characters below U+0020 are escaped, so no written value contains a line break.

* `quote`: the text of a string.
* `chars`: the text of a value, as characters.
* `compact`: the same, as a `String`.
-/

namespace ScriptedChat.Json

/-- Floating-point numbers are written positionally from 0.00001 up to 16 digits before the point, and
with an exponent otherwise; a whole number keeps a fraction of zero, so that it stays a
floating-point number when it is read again. -/
def realLayout : Binary64.Layout where
  plain := some (-5, 17)
  wholeFraction := true
  tieUp := false

/-- A hexadecimal digit, in lower case. -/
def hexChar (d : Nat) : Char :=
  if d < 10 then Char.ofNat (48 + d) else Char.ofNat (87 + d)

/-- A character as it stands inside a string. -/
def escape (c : Char) : List Char :=
  if c = '"' then ['\\', '"']
  else if c = '\\' then ['\\', '\\']
  else if c = '\n' then ['\\', 'n']
  else if c = '\r' then ['\\', 'r']
  else if c = '\t' then ['\\', 't']
  else if c.toNat = 0x08 then ['\\', 'b']
  else if c.toNat = 0x0C then ['\\', 'f']
  else if c.toNat < 0x20 then
    ['\\', 'u', '0', '0', hexChar (c.toNat / 16), hexChar (c.toNat % 16)]
  else [c]

/-- A text between quotation marks. -/
def quote (text : String) : List Char :=
  '"' :: (text.toList.flatMap escape ++ ['"'])

/-- The text of a number. -/
def numberChars : Number → List Char
  | .int n => Text.decimalInt n
  | .real x => Binary64.render realLayout x

mutual

/-- The text of a value. -/
def chars : Json → List Char
  | .null => ['n', 'u', 'l', 'l']
  | .bool true => ['t', 'r', 'u', 'e']
  | .bool false => ['f', 'a', 'l', 's', 'e']
  | .num n => numberChars n
  | .str text => quote text
  | .arr [] => ['[', ']']
  | .arr (v :: items) => '[' :: (chars v ++ itemsChars items)
  | .obj [] => ['\x7b', '\x7d']
  | .obj ((k, v) :: fields) => '\x7b' :: (quote k ++ ':' :: (chars v ++ fieldsChars fields))

/-- The further items of an array, each after a comma, and its end. -/
def itemsChars : List Json → List Char
  | [] => [']']
  | v :: items => ',' :: (chars v ++ itemsChars items)

/-- The further fields of an object, each after a comma, and its end. -/
def fieldsChars : List (String × Json) → List Char
  | [] => ['\x7d']
  | (k, v) :: fields => ',' :: (quote k ++ ':' :: (chars v ++ fieldsChars fields))

end

/-- The compact text of a value. -/
def compact (value : Json) : String :=
  String.ofList (chars value)

/-- The text of a number, as a `String`. -/
def numberText (n : Number) : String :=
  String.ofList (numberChars n)

end ScriptedChat.Json
