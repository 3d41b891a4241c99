/-!
# Numerals

Whole numbers in decimal notation, and in other bases up to sixteen.

* `decimal n`: the digits of a natural number, without leading zeros.
* `decimalInt n`: the same with a minus sign where it is needed.
* `digitsValue ds`: the number that a list of digits denotes.
* `readInt? text`: the number that a text denotes: one optional sign, then one or more digits.
* `numeral? base digits`: the number that one or more digits denote in a base.
* `charOf? n`: the character with a number.
-/

namespace ScriptedChat.Text

/-- The digit `d`, for `d < 10`. -/
def digitChar (d : Nat) : Char :=
  Char.ofNat (48 + d)

/-- The value of a decimal digit. -/
def digitValue (c : Char) : Nat :=
  c.toNat - 48

/-- The decimal digits `0` to `9`. -/
def isDigit (c : Char) : Bool :=
  48 ≤ c.toNat && c.toNat ≤ 57

/-- The decimal digits of a natural number. -/
def decimal (n : Nat) : List Char :=
  if n < 10 then [digitChar n] else decimal (n / 10) ++ [digitChar (n % 10)]
termination_by n
decreasing_by omega

/-- The decimal digits of an integer, after a minus sign if it is negative. -/
def decimalInt : Int → List Char
  | .ofNat n => decimal n
  | .negSucc n => '-' :: decimal (n + 1)

/-- The number that digits denote. -/
def digitsValue (digits : List Char) : Nat :=
  digits.foldl (fun value c => 10 * value + digitValue c) 0

/-- The number that one or more digits denote. -/
def readNat? (text : List Char) : Option Nat :=
  if text.isEmpty || ! text.all isDigit then none else some (digitsValue text)

/-- The number that digits after an optional sign denote. -/
def readInt? : List Char → Option Int
  | '-' :: text => (readNat? text).map fun n => -(n : Int)
  | '+' :: text => (readNat? text).map fun n => (n : Int)
  | text => (readNat? text).map fun n => (n : Int)

/-- The least signed 64-bit number. -/
def minInt64 : Int := -0x8000000000000000

/-- The greatest signed 64-bit number. -/
def maxInt64 : Int := 0x7FFFFFFFFFFFFFFF

/-- The greatest unsigned 64-bit number. -/
def maxUInt64 : Int := 0xFFFFFFFFFFFFFFFF

/-- `readInt?` for numbers of 64 bits with a sign. -/
def readInt64? (text : List Char) : Option Int :=
  (readInt? text).filter fun n => minInt64 ≤ n && n ≤ maxInt64

/-! ## Other bases -/

/-- The value of a digit in a base up to sixteen. -/
def digitIn? (base : Nat) (c : Char) : Option Nat :=
  let value :=
    if '0' ≤ c && c ≤ '9' then some (c.toNat - 48)
    else if 'a' ≤ c && c ≤ 'f' then some (c.toNat - 87)
    else if 'A' ≤ c && c ≤ 'F' then some (c.toNat - 55)
    else none
  value.filter (· < base)

/-- The number that one or more digits denote in a base. -/
def numeral? (base : Nat) (digits : List Char) : Option Nat :=
  if digits.isEmpty then none
  else digits.foldlM (fun value c => (digitIn? base c).map (base * value + ·)) 0

/-- The character with a number; surrogates and numbers above U+10FFFF have none. -/
def charOf? (n : Nat) : Option Char :=
  if n < 0xD800 || (0xE000 ≤ n && n < 0x110000) then some (Char.ofNat n) else none

/-- A natural number in decimal notation. -/
def natText (n : Nat) : String :=
  String.ofList (decimal n)

end ScriptedChat.Text
