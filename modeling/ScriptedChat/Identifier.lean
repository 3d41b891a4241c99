import ScriptedChat.Digest.Base64
import ScriptedChat.Digest.Sha256
import ScriptedChat.Text.Utf8

/-!
# Identifiers

Tool calls without an identifier of their own get one that depends on where they stand. It is a mark for
the kind of call and the beginning of the hash of the parts that say where that is.

* `preimage parts`: the bytes that are hashed: every part with a zero byte after it.
* `stableId mark parts`: the mark and the first twelve bytes of the hash in hexadecimal notation.

The simulator's `stable_id` is `stableId`.
-/

namespace ScriptedChat

/-- The bytes that an identifier is the hash of. -/
def preimage (parts : List String) : List UInt8 :=
  parts.flatMap fun part => Utf8.bytes part ++ [0]

/-- An identifier that depends on every part. -/
def stableId (mark : String) (parts : List String) : String :=
  mark ++ String.ofList (Digest.hex ((Sha256.digest (preimage parts)).take 12))

end ScriptedChat
