/-!
# UTF-8

Texts travel as bytes. Every text has one encoding; not every sequence of bytes is one.

* `encode`, `bytes`: the bytes of a text.
* `decode?`: the text that bytes encode, if they encode one.
* `afterDamage`: the bytes after the first byte of the first damaged place.
* `decodeLossy`: the text with every damaged place replaced by the character U+FFFD. A damaged place is
  the longest beginning of a character's encoding that does not go on as it should, or a single byte
  that begins none.
-/

namespace ScriptedChat.Utf8

/-! ## Encoding -/

/-- The bytes of one character. -/
def encodeChar (c : Char) : List UInt8 :=
  let n := c.toNat
  if n < 0x80 then
    [UInt8.ofNat n]
  else if n < 0x800 then
    [UInt8.ofNat (0xC0 + n / 0x40), UInt8.ofNat (0x80 + n % 0x40)]
  else if n < 0x10000 then
    [UInt8.ofNat (0xE0 + n / 0x1000), UInt8.ofNat (0x80 + n / 0x40 % 0x40),
      UInt8.ofNat (0x80 + n % 0x40)]
  else
    [UInt8.ofNat (0xF0 + n / 0x40000), UInt8.ofNat (0x80 + n / 0x1000 % 0x40),
      UInt8.ofNat (0x80 + n / 0x40 % 0x40), UInt8.ofNat (0x80 + n % 0x40)]

/-- The bytes of a text. -/
def encode (text : List Char) : List UInt8 :=
  text.flatMap encodeChar

/-- The bytes of a `String`. -/
def bytes (text : String) : List UInt8 :=
  encode text.toList

/-! ## Decoding -/

/-- Reads the bytes after a lead byte: `more + 1` of them, the first between `low` and `high`, the others
between 0x80 and 0xBF, each with six bits of the character. The result is `none` at a damaged place. -/
def readTail (value low high : Nat) : Nat → List UInt8 → Option Char × List UInt8
  | _, [] => (none, [])
  | more, b :: rest =>
    if low ≤ b.toNat && b.toNat ≤ high then
      let value := value * 0x40 + (b.toNat - 0x80)
      match more with
      | 0 => (some (Char.ofNat value), rest)
      | more + 1 => readTail value 0x80 0xBF more rest
    else (none, b :: rest)

/-- Reads one character that begins with `lead`. The ranges of the second byte leave out the longer
encodings of a character that has a shorter one, the surrogates, and what lies above U+10FFFF. -/
def readChar (lead : UInt8) (rest : List UInt8) : Option Char × List UInt8 :=
  let n := lead.toNat
  if n < 0x80 then (some (Char.ofNat n), rest)
  else if n < 0xC2 then (none, rest)
  else if n < 0xE0 then readTail (n - 0xC0) 0x80 0xBF 0 rest
  else if n = 0xE0 then readTail 0 0xA0 0xBF 1 rest
  else if n = 0xED then readTail 0xD 0x80 0x9F 1 rest
  else if n < 0xF0 then readTail (n - 0xE0) 0x80 0xBF 1 rest
  else if n = 0xF0 then readTail 0 0x90 0xBF 2 rest
  else if n < 0xF4 then readTail (n - 0xF0) 0x80 0xBF 2 rest
  else if n = 0xF4 then readTail 4 0x80 0x8F 2 rest
  else (none, rest)

theorem length_readTail_le (more value low high : Nat) (s : List UInt8) :
    (readTail value low high more s).2.length ≤ s.length := by
  induction s generalizing more value low high with
  | nil => simp [readTail]
  | cons b rest ih =>
    unfold readTail
    split
    · cases more with
      | zero => simp
      | succ more =>
        have := ih more (value * 0x40 + (b.toNat - 0x80)) 0x80 0xBF
        simp only [List.length_cons]
        omega
    · simp

/-- Reading a character consumes at least its lead byte. -/
theorem length_readChar_le (lead : UInt8) (rest : List UInt8) :
    (readChar lead rest).2.length ≤ rest.length := by
  unfold readChar
  simp only
  repeat' split
  all_goals first | exact Nat.le_refl _ | exact length_readTail_le ..

/-- The characters that bytes encode, `none` for each damaged place. -/
def readAll : List UInt8 → List (Option Char)
  | [] => []
  | lead :: rest => (readChar lead rest).1 :: readAll (readChar lead rest).2
termination_by s => s.length
decreasing_by
  have := length_readChar_le lead rest
  simp only [List.length_cons]
  omega

/-- The bytes after the first byte of the first damaged place. -/
def afterDamage : List UInt8 → List UInt8
  | [] => []
  | lead :: rest =>
    match (readChar lead rest).1 with
    | none => rest
    | some _ => afterDamage (readChar lead rest).2
termination_by s => s.length
decreasing_by
  have := length_readChar_le lead rest
  simp only [List.length_cons]
  omega

/-- The text that bytes encode, if no place is damaged. -/
def decode? (s : List UInt8) : Option (List Char) :=
  (readAll s).mapM id

/-- The text that bytes encode, with U+FFFD for each damaged place. -/
def decodeLossy (s : List UInt8) : String :=
  String.ofList ((readAll s).map fun c => c.getD '\uFFFD')

end ScriptedChat.Utf8
