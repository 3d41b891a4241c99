import ScriptedChat.Text.Utf8

/-!
# UTF-8 is lossless

The bytes of a text encode that text and no other, and no other bytes are decoded.

* `readChar_two`, `readChar_three`, `readChar_four` — reading the characters
  with more than one byte;
* `readAll_encodeChar` — one character, whatever follows it;
* `decode?_encode`, `encode_injective` — a whole text;
* `encodeChar_of_readChar`, `encode_of_decode?` — what is decoded is an encoding;
* `encodeChar_append_inj` — the first character of an encoding.
-/

namespace ScriptedChat.Utf8

@[simp] theorem encode_nil : encode [] = [] := rfl

@[simp] theorem encode_cons (c : Char) (text : List Char) :
    encode (c :: text) = encodeChar c ++ encode text := rfl

@[simp] theorem encode_append (text more : List Char) :
    encode (text ++ more) = encode text ++ encode more :=
  List.flatMap_append

/-! ## Bytes -/

theorem toNat_byte {n : Nat} (h : n < 256) : (UInt8.ofNat n).toNat = n := by
  rw [UInt8.toNat_ofNat', Nat.mod_eq_of_lt h]

theorem readTail_last {value low high : Nat} {b : UInt8} {rest : List UInt8}
    (hlow : low ≤ b.toNat) (hhigh : b.toNat ≤ high) :
    readTail value low high 0 (b :: rest) =
      (some (Char.ofNat (value * 0x40 + (b.toNat - 0x80))), rest) := by
  rw [readTail, if_pos (by simp [hlow, hhigh])]

theorem readTail_more {value low high more : Nat} {b : UInt8} {rest : List UInt8}
    (hlow : low ≤ b.toNat) (hhigh : b.toNat ≤ high) :
    readTail value low high (more + 1) (b :: rest) =
      readTail (value * 0x40 + (b.toNat - 0x80)) 0x80 0xBF more rest := by
  rw [readTail, if_pos (by simp [hlow, hhigh])]

/-- What a character may be: no surrogate, and nothing above U+10FFFF. -/
theorem toNat_range (c : Char) :
    c.toNat < 0xD800 ∨ (0xDFFF < c.toNat ∧ c.toNat < 0x110000) := c.valid

/-! ## One character -/

theorem readChar_two {n : Nat} (hlow : 0x80 ≤ n) (hhigh : n < 0x800) (rest : List UInt8) :
    readChar (UInt8.ofNat (0xC0 + n / 0x40)) (UInt8.ofNat (0x80 + n % 0x40) :: rest) =
      (some (Char.ofNat n), rest) := by
  have hlead : (UInt8.ofNat (0xC0 + n / 0x40)).toNat = 0xC0 + n / 0x40 := toNat_byte (by omega)
  have hlast : (UInt8.ofNat (0x80 + n % 0x40)).toNat = 0x80 + n % 0x40 := toNat_byte (by omega)
  have hvalue : (0xC0 + n / 0x40 - 0xC0) * 0x40 + (0x80 + n % 0x40 - 0x80) = n := by omega
  unfold readChar
  rw [hlead]
  simp only
  rw [if_neg (by omega), if_neg (by omega), if_pos (by omega),
    readTail_last (by omega) (by omega), hlast, hvalue]

theorem readChar_three {n : Nat} (hlow : 0x800 ≤ n) (hhigh : n < 0x10000)
    (hvalid : n < 0xD800 ∨ 0xDFFF < n) (rest : List UInt8) :
    readChar (UInt8.ofNat (0xE0 + n / 0x1000))
        (UInt8.ofNat (0x80 + n / 0x40 % 0x40) :: UInt8.ofNat (0x80 + n % 0x40) :: rest) =
      (some (Char.ofNat n), rest) := by
  have hlead : (UInt8.ofNat (0xE0 + n / 0x1000)).toNat = 0xE0 + n / 0x1000 := toNat_byte (by omega)
  have hnext : (UInt8.ofNat (0x80 + n / 0x40 % 0x40)).toNat = 0x80 + n / 0x40 % 0x40 :=
    toNat_byte (by omega)
  have hlast : (UInt8.ofNat (0x80 + n % 0x40)).toNat = 0x80 + n % 0x40 := toNat_byte (by omega)
  unfold readChar
  rw [hlead]
  simp only
  rw [if_neg (by omega), if_neg (by omega), if_neg (by omega)]
  -- the second byte is narrower after the leads 0xE0 and 0xED
  split
  · have hvalue : (0 * 0x40 + (0x80 + n / 0x40 % 0x40 - 0x80)) * 0x40
        + (0x80 + n % 0x40 - 0x80) = n := by omega
    rw [readTail_more (by omega) (by omega), readTail_last (by omega) (by omega), hnext, hlast,
      hvalue]
  · split
    · have hvalue : (0xD * 0x40 + (0x80 + n / 0x40 % 0x40 - 0x80)) * 0x40
          + (0x80 + n % 0x40 - 0x80) = n := by omega
      rw [readTail_more (by omega) (by omega), readTail_last (by omega) (by omega), hnext, hlast,
        hvalue]
    · have hvalue : ((0xE0 + n / 0x1000 - 0xE0) * 0x40 + (0x80 + n / 0x40 % 0x40 - 0x80)) * 0x40
          + (0x80 + n % 0x40 - 0x80) = n := by omega
      rw [if_pos (by omega), readTail_more (by omega) (by omega),
        readTail_last (by omega) (by omega), hnext, hlast, hvalue]

theorem readChar_four {n : Nat} (hlow : 0x10000 ≤ n) (hhigh : n < 0x110000) (rest : List UInt8) :
    readChar (UInt8.ofNat (0xF0 + n / 0x40000))
        (UInt8.ofNat (0x80 + n / 0x1000 % 0x40) :: UInt8.ofNat (0x80 + n / 0x40 % 0x40) ::
          UInt8.ofNat (0x80 + n % 0x40) :: rest) =
      (some (Char.ofNat n), rest) := by
  have hlead : (UInt8.ofNat (0xF0 + n / 0x40000)).toNat = 0xF0 + n / 0x40000 :=
    toNat_byte (by omega)
  have hnext : (UInt8.ofNat (0x80 + n / 0x1000 % 0x40)).toNat = 0x80 + n / 0x1000 % 0x40 :=
    toNat_byte (by omega)
  have hthird : (UInt8.ofNat (0x80 + n / 0x40 % 0x40)).toNat = 0x80 + n / 0x40 % 0x40 :=
    toNat_byte (by omega)
  have hlast : (UInt8.ofNat (0x80 + n % 0x40)).toNat = 0x80 + n % 0x40 := toNat_byte (by omega)
  unfold readChar
  rw [hlead]
  simp only
  rw [if_neg (by omega), if_neg (by omega), if_neg (by omega), if_neg (by omega),
    if_neg (by omega), if_neg (by omega)]
  -- the second byte is narrower after the leads 0xF0 and 0xF4
  split
  · have hvalue : ((0 * 0x40 + (0x80 + n / 0x1000 % 0x40 - 0x80)) * 0x40
        + (0x80 + n / 0x40 % 0x40 - 0x80)) * 0x40 + (0x80 + n % 0x40 - 0x80) = n := by omega
    rw [readTail_more (by omega) (by omega), readTail_more (by omega) (by omega),
      readTail_last (by omega) (by omega), hnext, hthird, hlast, hvalue]
  · split
    · have hvalue : (((0xF0 + n / 0x40000 - 0xF0) * 0x40 + (0x80 + n / 0x1000 % 0x40 - 0x80)) * 0x40
          + (0x80 + n / 0x40 % 0x40 - 0x80)) * 0x40 + (0x80 + n % 0x40 - 0x80) = n := by omega
      rw [readTail_more (by omega) (by omega), readTail_more (by omega) (by omega),
        readTail_last (by omega) (by omega), hnext, hthird, hlast, hvalue]
    · have hvalue : ((4 * 0x40 + (0x80 + n / 0x1000 % 0x40 - 0x80)) * 0x40
          + (0x80 + n / 0x40 % 0x40 - 0x80)) * 0x40 + (0x80 + n % 0x40 - 0x80) = n := by omega
      rw [if_pos (by omega), readTail_more (by omega) (by omega),
        readTail_more (by omega) (by omega), readTail_last (by omega) (by omega), hnext, hthird,
        hlast, hvalue]

/-- The bytes of a character are read as that character, whatever follows. -/
theorem readAll_encodeChar (c : Char) (rest : List UInt8) :
    readAll (encodeChar c ++ rest) = some c :: readAll rest := by
  have hrange := toNat_range c
  unfold encodeChar
  simp only
  split
  · rename_i h
    have hlead : (UInt8.ofNat c.toNat).toNat = c.toNat := toNat_byte (by omega)
    rw [List.singleton_append, readAll, readChar, hlead]
    simp [h]
  · split
    · rw [List.cons_append, List.singleton_append, readAll, readChar_two (by omega) (by omega),
        Char.ofNat_toNat]
    · split
      · rw [List.cons_append, List.cons_append, List.singleton_append, readAll,
          readChar_three (by omega) (by omega) (by omega), Char.ofNat_toNat]
      · rw [List.cons_append, List.cons_append, List.cons_append, List.singleton_append, readAll,
          readChar_four (by omega) (by omega), Char.ofNat_toNat]

/-! ## Texts -/

theorem readAll_encode (text : List Char) : readAll (encode text) = text.map some := by
  induction text with
  | nil => simp [readAll]
  | cons c text ih => rw [encode_cons, readAll_encodeChar, ih, List.map_cons]

/-- **No text is damaged by its encoding.** -/
theorem decode?_encode (text : List Char) : decode? (encode text) = some text := by
  rw [decode?, readAll_encode]
  induction text with
  | nil => rfl
  | cons c text ih => simp [ih]

theorem encode_injective {s t : List Char} (h : encode s = encode t) : s = t := by
  apply Option.some.inj
  rw [← decode?_encode s, h, decode?_encode]

/-! ## Bytes that encode a text -/

/-- A byte between two bounds, and what is left after it. -/
theorem readTail_eq_some {value low high more : Nat} {s rest : List UInt8} {c : Char}
    (h : readTail value low high more s = (some c, rest)) :
    ∃ b t, s = b :: t ∧ low ≤ b.toNat ∧ b.toNat ≤ high ∧
      (match more with
        | 0 => Char.ofNat (value * 0x40 + (b.toNat - 0x80)) = c ∧ t = rest
        | more + 1 => readTail (value * 0x40 + (b.toNat - 0x80)) 0x80 0xBF more t = (some c, rest)) := by
  cases s with
  | nil =>
    rw [readTail] at h
    cases h
  | cons b t =>
    rw [readTail] at h
    split at h
    · rename_i hrange
      rw [Bool.and_eq_true, decide_eq_true_eq, decide_eq_true_eq] at hrange
      refine ⟨b, t, rfl, hrange.1, hrange.2, ?_⟩
      cases more with
      | zero => simpa only [Prod.mk.injEq, Option.some.injEq] using h
      | succ more => exact h
    · cases h

theorem ofNat_byte {b : UInt8} {n : Nat} (h : n = b.toNat) : UInt8.ofNat n = b := by
  rw [h, UInt8.ofNat_toNat]

theorem toNat_ofNat {n : Nat} (h : n < 0xD800 ∨ 0xDFFF < n ∧ n < 0x110000) :
    (Char.ofNat n).toNat = n := by
  rw [Char.ofNat, dif_pos h]
  rfl

variable {lead b d e : UInt8} {n : Nat}

theorem encodeChar_one (h : n < 0x80) (hlead : n = lead.toNat) :
    encodeChar (Char.ofNat n) = [lead] := by
  rw [encodeChar, toNat_ofNat (.inl (by omega))]
  rw [if_pos h, ofNat_byte hlead]

theorem encodeChar_two (hlow : 0x80 ≤ n) (hhigh : n < 0x800)
    (hlead : 0xC0 + n / 0x40 = lead.toNat) (hb : 0x80 + n % 0x40 = b.toNat) :
    encodeChar (Char.ofNat n) = [lead, b] := by
  rw [encodeChar, toNat_ofNat (.inl (by omega))]
  rw [if_neg (by omega), if_pos hhigh, ofNat_byte hlead, ofNat_byte hb]

theorem encodeChar_three (hlow : 0x800 ≤ n) (hhigh : n < 0x10000)
    (hvalid : n < 0xD800 ∨ 0xDFFF < n) (hlead : 0xE0 + n / 0x1000 = lead.toNat)
    (hb : 0x80 + n / 0x40 % 0x40 = b.toNat) (hd : 0x80 + n % 0x40 = d.toNat) :
    encodeChar (Char.ofNat n) = [lead, b, d] := by
  rw [encodeChar, toNat_ofNat (by omega)]
  rw [if_neg (by omega), if_neg (by omega), if_pos hhigh, ofNat_byte hlead, ofNat_byte hb,
    ofNat_byte hd]

theorem encodeChar_four (hlow : 0x10000 ≤ n) (hhigh : n < 0x110000)
    (hlead : 0xF0 + n / 0x40000 = lead.toNat) (hb : 0x80 + n / 0x1000 % 0x40 = b.toNat)
    (hd : 0x80 + n / 0x40 % 0x40 = d.toNat) (he : 0x80 + n % 0x40 = e.toNat) :
    encodeChar (Char.ofNat n) = [lead, b, d, e] := by
  rw [encodeChar, toNat_ofNat (by omega)]
  rw [if_neg (by omega), if_neg (by omega), if_neg (by omega), ofNat_byte hlead, ofNat_byte hb,
    ofNat_byte hd, ofNat_byte he]

/-- Two bytes after a lead. -/
theorem encode_tail_two {value low high : Nat} {s rest : List UInt8} {c : Char}
    (h : readTail value low high 1 s = (some c, rest)) (hlead : 0xE0 + value = lead.toNat)
    (hvalue : value < 0x10) (hlow : 0x80 ≤ low) (hhigh : high ≤ 0xBF)
    (hshort : value = 0 → 0xA0 ≤ low) (hpair : value = 0xD → high ≤ 0x9F) :
    encodeChar c ++ rest = lead :: s := by
  obtain ⟨b, t, rfl, hblow, hbhigh, h⟩ := readTail_eq_some h
  obtain ⟨d, t, rfl, hdlow, hdhigh, rfl, rfl⟩ := readTail_eq_some h
  have hchar : encodeChar (Char.ofNat ((value * 0x40 + (b.toNat - 0x80)) * 0x40 +
      (d.toNat - 0x80))) = [lead, b, d] :=
    encodeChar_three (by omega) (by omega) (by omega) (by omega) (by omega) (by omega)
  rw [hchar]
  rfl

theorem encode_tail_three {value low high : Nat} {s rest : List UInt8} {c : Char}
    (h : readTail value low high 2 s = (some c, rest)) (hlead : 0xF0 + value = lead.toNat)
    (hvalue : value ≤ 4) (hlow : 0x80 ≤ low) (hhigh : high ≤ 0xBF)
    (hshort : value = 0 → 0x90 ≤ low) (hgreat : value = 4 → high ≤ 0x8F) :
    encodeChar c ++ rest = lead :: s := by
  obtain ⟨b, t, rfl, hblow, hbhigh, h⟩ := readTail_eq_some h
  obtain ⟨d, t, rfl, hdlow, hdhigh, h⟩ := readTail_eq_some h
  obtain ⟨e, t, rfl, helow, hehigh, rfl, rfl⟩ := readTail_eq_some h
  have hchar : encodeChar (Char.ofNat (((value * 0x40 + (b.toNat - 0x80)) * 0x40 +
      (d.toNat - 0x80)) * 0x40 + (e.toNat - 0x80))) = [lead, b, d, e] :=
    encodeChar_four (by omega) (by omega) (by omega) (by omega) (by omega) (by omega)
  rw [hchar]
  rfl

/-- **A character that is read stands there as it is encoded.** -/
theorem encodeChar_of_readChar {s rest : List UInt8} {c : Char}
    (h : readChar lead s = (some c, rest)) : encodeChar c ++ rest = lead :: s := by
  unfold readChar at h
  dsimp only at h
  split at h
  · obtain ⟨rfl, rfl⟩ : Char.ofNat lead.toNat = c ∧ s = rest := by
      simpa only [Prod.mk.injEq, Option.some.injEq] using h
    rw [encodeChar_one ‹_› rfl]
    rfl
  split at h
  · cases h
  split at h
  · obtain ⟨b, t, rfl, hblow, hbhigh, rfl, rfl⟩ := readTail_eq_some h
    have hchar : encodeChar (Char.ofNat ((lead.toNat - 0xC0) * 0x40 + (b.toNat - 0x80))) =
        [lead, b] :=
      encodeChar_two (by omega) (by omega) (by omega) (by omega)
    rw [hchar]
    rfl
  split at h
  · exact encode_tail_two h (by omega) (by omega) (by omega) (by omega) (by omega) (by omega)
  split at h
  · exact encode_tail_two h (by omega) (by omega) (by omega) (by omega) (by omega) (by omega)
  split at h
  · exact encode_tail_two h (by omega) (by omega) (by omega) (by omega) (by omega) (by omega)
  split at h
  · exact encode_tail_three h (by omega) (by omega) (by omega) (by omega) (by omega) (by omega)
  split at h
  · exact encode_tail_three h (by omega) (by omega) (by omega) (by omega) (by omega) (by omega)
  split at h
  · exact encode_tail_three h (by omega) (by omega) (by omega) (by omega) (by omega) (by omega)
  · cases h

theorem mapM_id_eq_some {xs : List (Option Char)} {text : List Char} (h : xs.mapM id = some text) :
    xs = text.map some := by
  induction xs generalizing text with
  | nil =>
    cases h
    rfl
  | cons x xs ih =>
    rw [List.mapM_cons] at h
    obtain ⟨c, hc, h⟩ := Option.bind_eq_some_iff.1 h
    obtain ⟨rest, hrest, h⟩ := Option.bind_eq_some_iff.1 h
    obtain rfl := Option.some.inj h
    rw [ih hrest, List.map_cons, ← hc, id]

theorem encode_of_readAll {s : List UInt8} {text : List Char} (h : readAll s = text.map some) :
    encode text = s := by
  fun_induction readAll s generalizing text with
  | case1 =>
    rw [List.map_eq_nil_iff.1 h.symm]
    rfl
  | case2 lead rest ih =>
    cases text with
    | nil => cases h
    | cons c text =>
      obtain ⟨hc, hrest⟩ := List.cons.inj h
      rw [encode_cons, ih hrest]
      exact encodeChar_of_readChar (Prod.ext hc rfl)

/-- **Bytes that are decoded are the encoding of what they are decoded to.** -/
theorem encode_of_decode? {s : List UInt8} {text : List Char} (h : decode? s = some text) :
    encode text = s :=
  encode_of_readAll (mapM_id_eq_some h)

/-- A byte inside the encoding of a character, after its first one. -/
def Continues (b : UInt8) : Prop := 0x80 ≤ b.toNat ∧ b.toNat < 0xC0

theorem continues_ofNat {n : Nat} (h : n < 0x40) : Continues (UInt8.ofNat (0x80 + n)) := by
  rw [Continues, toNat_byte (by omega)]
  omega

theorem not_continues_ofNat {n : Nat} (h : n < 0x80 ∨ 0xC0 ≤ n ∧ n < 0x100) :
    ¬ Continues (UInt8.ofNat n) := by
  rw [Continues, toNat_byte (by omega)]
  omega

/-- The encoding of a character is a first byte and such as continue it. -/
theorem encodeChar_parts (c : Char) :
    ∃ b bytes, encodeChar c = b :: bytes ∧ ¬ Continues b ∧ ∀ d ∈ bytes, Continues d := by
  have hrange := toNat_range c
  unfold encodeChar
  dsimp only
  split
  · exact ⟨_, [], rfl, not_continues_ofNat (.inl (by omega)), nofun⟩
  split
  · refine ⟨_, _, rfl, not_continues_ofNat (.inr (by omega)), ?_⟩
    exact List.forall_mem_singleton.2 (continues_ofNat (by omega))
  split
  · refine ⟨_, _, rfl, not_continues_ofNat (.inr (by omega)), ?_⟩
    refine List.forall_mem_cons.2 ⟨continues_ofNat (by omega), ?_⟩
    exact List.forall_mem_singleton.2 (continues_ofNat (by omega))
  · refine ⟨_, _, rfl, not_continues_ofNat (.inr (by omega)), ?_⟩
    refine List.forall_mem_cons.2 ⟨continues_ofNat (by omega), ?_⟩
    refine List.forall_mem_cons.2 ⟨continues_ofNat (by omega), ?_⟩
    exact List.forall_mem_singleton.2 (continues_ofNat (by omega))

/-- Where the encoding of a character begins a text, the character does. -/
theorem encodeChar_append_inj {c d : Char} {s t : List UInt8}
    (h : encodeChar c ++ s = encodeChar d ++ t) : c = d ∧ s = t := by
  have hread := congrArg readAll h
  rw [readAll_encodeChar, readAll_encodeChar] at hread
  obtain rfl := Option.some.inj (List.cons.inj hread).1
  exact ⟨rfl, List.append_cancel_left h⟩

end ScriptedChat.Utf8
