import ScriptedChat.Digest.Base64
import ScriptedChat.Digest.Sha256
import ScriptedChat.Text.Utf8
import ScriptedChat.Word

/-!
# Filler text

Where a script asks for a number of words only, the words come from a fixed vocabulary that is repeated
as often as needed. Everything here is determined by its arguments, so an answer can be reproduced.

* `fillerText count`: `count` words with single spaces between them.
* `stableLength seed min max`: a number of words between `min` and `max` that depends on a text.
* `checkedLength?`: the same number, computed with operations that can fail.
* `thinkingSignature`, `encryptedReasoning`: stand-ins for a provider's opaque tokens.

The simulator's `filler_text`, `stable_length`, `thinking_signature` and `encrypted_reasoning` are
`fillerText`, `checkedLength?`, `thinkingSignature` and `encryptedReasoning`.
-/

namespace ScriptedChat

/-- The words of filler text, in order. -/
def vocabulary : List String :=
  ["lorem", "ipsum", "dolor", "sit", "amet", "consectetur", "adipiscing", "elit", "sed", "do",
   "eiusmod", "tempor", "incididunt", "ut", "labore", "et", "dolore", "magna", "aliqua", "enim",
   "ad", "minim", "veniam", "quis", "nostrud", "exercitation", "ullamco", "laboris", "nisi",
   "aliquip", "ex", "ea", "commodo", "consequat"]

/-- The word at a position of endless filler text. -/
def fillerWord (i : Nat) : List Char :=
  (vocabulary.getD (i % vocabulary.length) "").toList

/-- The first `count` words of endless filler text. -/
def fillerWords (count : Nat) : List (List Char) :=
  (List.range count).map fillerWord

/-- The first `count` words of endless filler text, with single spaces between them. -/
def fillerText (count : Nat) : String :=
  String.ofList (List.intercalate [' '] (fillerWords count))

/-- The hash of a text. -/
def textDigest (text : String) : List UInt8 :=
  Sha256.digest (Utf8.bytes text)

/-- The number that eight bytes denote, the highest first. -/
def bigEndian (bytes : List UInt8) : UInt64 :=
  bytes.foldl (fun n b => n * 256 + b.toUInt64) 0

/-- How many numbers lie between `min` and `max`, both included; zero where there are `2 ^ 64`. -/
def lengthSpan (min max : UInt64) : UInt64 :=
  max - min + 1

/-- A number of words between `min` and `max` that depends on `seed` only; `min` where no number lies
between them. -/
def stableLength (seed : String) (min max : UInt64) : UInt64 :=
  if max ≤ min then min
  else min + bigEndian ((textDigest seed).take 8) % lengthSpan min max

/-- How many numbers lie in a range, if 64 bits are enough to count them. -/
def span? (min max : UInt64) : Option UInt64 :=
  (difference? max min).bind fun difference => sum? difference 1

/-- The length that a text stands for in a range, if no operation on the way fails. -/
def checkedLength? (seed : String) (min max : UInt64) : Option UInt64 :=
  if max ≤ min then some min
  else
    (span? min max).bind fun span =>
      (remainder? (bigEndian ((textDigest seed).take 8)) span).bind fun rest => sum? min rest

/-- The signature of a reasoning text. -/
def thinkingSignature (thinking : String) : String :=
  Digest.base64 (textDigest thinking)

/-- The encrypted form of a reasoning text: its hash and its own bytes. -/
def encryptedReasoning (reasoning : String) : String :=
  Digest.base64 (textDigest reasoning ++ Utf8.bytes reasoning)

end ScriptedChat
