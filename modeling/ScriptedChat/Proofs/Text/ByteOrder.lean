import Mathlib.Data.String.Basic
import ScriptedChat.Proofs.Text.Utf8

/-!
# The order of texts is the order of their bytes

Texts are ordered by their characters.  The bytes of a smaller character come
before those of a greater one, and not as their beginning; so the order by bytes
is the same.

* `Before`, `before_encodeChar` — one character;
* `bytes_lt` — a whole text.
-/

namespace ScriptedChat.Utf8

/-- Bytes that come before others, whatever follows either of them. -/
def Before (a b : List UInt8) : Prop :=
  ∀ rest more, List.Lex (· < ·) (a ++ rest) (b ++ more)

/-- The first bytes decide, and the others do where these are equal. -/
theorem before_byte {n m : Nat} {a b : List UInt8} (hle : n ≤ m) (hm : m < 256)
    (h : n = m → Before a b) : Before (UInt8.ofNat n :: a) (UInt8.ofNat m :: b) := by
  intro rest more
  rcases Nat.lt_or_eq_of_le hle with hlt | heq
  · refine .rel (UInt8.lt_iff_toNat_lt.2 ?_)
    rwa [toNat_byte hm, toNat_byte (by omega)]
  · subst heq
    exact .cons (h rfl rest more)

/-- A smaller lead byte decides at once. -/
theorem before_lead {n m : Nat} {a b : List UInt8} (hlt : n < m) (hm : m < 256) :
    Before (UInt8.ofNat n :: a) (UInt8.ofNat m :: b) :=
  before_byte (Nat.le_of_lt hlt) hm fun heq => absurd heq (Nat.ne_of_lt hlt)

theorem before_encodeChar {c d : Char} (h : c.toNat < d.toNat) :
    Before (encodeChar c) (encodeChar d) := by
  have hrange := toNat_range d
  unfold encodeChar
  simp only
  -- the number of bytes grows with the character, and so does the lead byte
  by_cases hd₁ : d.toNat < 0x80
  · rw [if_pos (by omega), if_pos hd₁]
    exact before_lead h (by omega)
  rw [if_neg hd₁]
  by_cases hd₂ : d.toNat < 0x800
  · rw [if_pos hd₂]
    split
    · exact before_lead (by omega) (by omega)
    · rw [if_pos (by omega)]
      exact before_byte (by omega) (by omega) fun _ => before_lead (by omega) (by omega)
  rw [if_neg hd₂]
  by_cases hd₃ : d.toNat < 0x10000
  · rw [if_pos hd₃]
    split
    · exact before_lead (by omega) (by omega)
    · split
      · exact before_lead (by omega) (by omega)
      · rw [if_pos (by omega)]
        exact before_byte (by omega) (by omega) fun _ =>
          before_byte (by omega) (by omega) fun _ => before_lead (by omega) (by omega)
  rw [if_neg hd₃]
  split
  · exact before_lead (by omega) (by omega)
  · split
    · exact before_lead (by omega) (by omega)
    · split
      · exact before_lead (by omega) (by omega)
      · exact before_byte (by omega) (by omega) fun _ =>
          before_byte (by omega) (by omega) fun _ =>
            before_byte (by omega) (by omega) fun _ => before_lead (by omega) (by omega)

theorem encode_lt {s t : List Char} (h : List.Lex (· < ·) s t) :
    List.Lex (· < ·) (encode s) (encode t) := by
  induction h with
  | @nil c text =>
    rw [encode_nil, encode_cons]
    obtain ⟨b, rest, hbytes, -⟩ := encodeChar_parts c
    rw [hbytes]
    exact .nil
  | @rel c s d t hlt =>
    rw [encode_cons, encode_cons]
    exact before_encodeChar (UInt32.lt_iff_toNat_lt.1 hlt) (encode s) (encode t)
  | @cons c s t _ ih =>
    rw [encode_cons, encode_cons]
    exact ih.append_left _ _

/-- **A smaller text has smaller bytes.** -/
theorem bytes_lt {a b : String} (h : a < b) : List.Lex (· < ·) (bytes a) (bytes b) :=
  encode_lt (String.lt_iff_toList_lt.1 h)

end ScriptedChat.Utf8
