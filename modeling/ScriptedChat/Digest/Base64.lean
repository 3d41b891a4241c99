import ScriptedChat.Json.Printer
import ScriptedChat.Text.Fragment

/-!
# Bytes as text

Two ways to write bytes with printable characters.

* `base64`: four characters for three bytes, filled up with equals signs.
* `hex`: two lower-case hexadecimal digits a byte.
-/

namespace ScriptedChat.Digest

/-- The character for six bits. -/
def base64Char (n : Nat) : Char :=
  if n < 26 then Char.ofNat (65 + n)
  else if n < 52 then Char.ofNat (97 + (n - 26))
  else if n < 62 then Char.ofNat (48 + (n - 52))
  else if n = 62 then '+'
  else '/'

/-- The characters for a 24-bit number. -/
def base64Group (n : Nat) : List Char :=
  [base64Char (n / 0x40000), base64Char (n / 0x1000 % 0x40), base64Char (n / 0x40 % 0x40),
    base64Char (n % 0x40)]

/-- The characters for up to three bytes. -/
def base64Chars : List UInt8 → List Char
  | [] => []
  | [a] => (base64Group (a.toNat * 0x10000)).take 2 ++ ['=', '=']
  | [a, b] => (base64Group (a.toNat * 0x10000 + b.toNat * 0x100)).take 3 ++ ['=']
  | a :: b :: c :: _ => base64Group (a.toNat * 0x10000 + b.toNat * 0x100 + c.toNat)

/-- Bytes in base 64. -/
def base64 (bytes : List UInt8) : String :=
  String.ofList ((Text.groupsOf 3 bytes).flatMap base64Chars)

/-- Bytes in hexadecimal notation. -/
def hex (bytes : List UInt8) : List Char :=
  bytes.flatMap fun b => [Json.hexChar (b.toNat / 16), Json.hexChar (b.toNat % 16)]

end ScriptedChat.Digest
