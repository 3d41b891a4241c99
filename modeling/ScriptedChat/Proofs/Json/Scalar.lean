import ScriptedChat.Json.Printer
import ScriptedChat.Proofs.Text.Utf8
import ScriptedChat.Json.Reader

/-!
# Numbers are read as they were written, and strings part by part

The reader takes a number from the front of some bytes.  Whatever follows what
was written, it takes exactly that and leaves the rest.

What is proved here:

* `absorb_decimal` — the digits of a number of 64 bits are taken up without
  loss;
* `number_decimal`, `value_int` — numbers, where no number goes on after them;
* `stringFrom_plain`, `stringFrom_letter`, `stringFrom_digits` — the parts of a
  string.
-/

namespace ScriptedChat.Json

/-! ## Digits -/

theorem encodeChar_digitChar :
    ∀ d < 10, Utf8.encodeChar (Text.digitChar d) = [UInt8.ofNat (48 + d)] := by
  decide

theorem isDigitByte_ofNat : ∀ d < 10, isDigitByte (UInt8.ofNat (48 + d)) = true := by
  decide

theorem digitOf_ofNat : ∀ d < 10, digitOf (UInt8.ofNat (48 + d)) = d := by
  decide

/-- The digits of a number as bytes. -/
abbrev decimalBytes (n : Nat) : List UInt8 := Utf8.encode (Text.decimal n)

theorem decimalBytes_of_lt {n : Nat} (h : n < 10) : decimalBytes n = [UInt8.ofNat (48 + n)] := by
  rw [decimalBytes, Text.decimal, if_pos h, Utf8.encode_cons, encodeChar_digitChar n h]
  rfl

theorem decimalBytes_of_le {n : Nat} (h : 10 ≤ n) :
    decimalBytes n = decimalBytes (n / 10) ++ [UInt8.ofNat (48 + n % 10)] := by
  rw [decimalBytes, Text.decimal, if_neg (by omega), Utf8.encode_append, Utf8.encode_cons,
    encodeChar_digitChar (n % 10) (by omega)]
  rfl

theorem isDigitByte_of_mem (n : Nat) : ∀ b ∈ decimalBytes n, isDigitByte b = true := by
  induction n using Nat.strongRecOn with
  | ind n ih =>
    by_cases h : n < 10
    · rw [decimalBytes_of_lt h]
      intro b hb
      rw [List.mem_singleton.1 hb]
      exact isDigitByte_ofNat n h
    · rw [decimalBytes_of_le (by omega)]
      intro b hb
      rcases List.mem_append.1 hb with hb | hb
      · exact ih (n / 10) (by omega) b hb
      · rw [List.mem_singleton.1 hb]
        exact isDigitByte_ofNat (n % 10) (by omega)

/-- A number has a first digit, and only the number zero begins with zero. -/
theorem decimalBytes_head (n : Nat) :
    ∃ b digits, decimalBytes n = b :: digits ∧ (0 < n → b ≠ 0x30) := by
  induction n using Nat.strongRecOn with
  | ind n ih =>
    by_cases hlt : n < 10
    · have hne : ∀ d < 10, 0 < d → UInt8.ofNat (48 + d) ≠ 0x30 := by decide
      exact ⟨_, [], decimalBytes_of_lt hlt, hne n hlt⟩
    · obtain ⟨b, digits, heq, hne⟩ := ih (n / 10) (by omega)
      refine ⟨b, digits ++ [UInt8.ofNat (48 + n % 10)], ?_, fun _ => hne (by omega)⟩
      rw [decimalBytes_of_le (by omega), heq, List.cons_append]

theorem absorb_append {significand m : Nat} {digits : List UInt8} {d : UInt8}
    (h : absorb significand digits = (m, [])) (hfits : 10 * m + digitOf d < UInt64.size) :
    absorb significand (digits ++ [d]) = (10 * m + digitOf d, []) := by
  induction digits generalizing significand with
  | nil =>
    rw [absorb] at h
    cases h
    rw [List.nil_append, absorb]
    simp only [if_pos hfits]
    rfl
  | cons first digits ih =>
    rw [absorb] at h
    rw [List.cons_append, absorb]
    split at h
    · rename_i hnext
      rw [if_pos hnext]
      exact ih h
    · exact absurd (congrArg Prod.snd h) (List.cons_ne_nil _ _)

/-- **The digits of a number of 64 bits denote that number.** -/
theorem absorb_decimal {n : Nat} (h : n < UInt64.size) : absorb 0 (decimalBytes n) = (n, []) := by
  induction n using Nat.strongRecOn with
  | ind n ih =>
    by_cases hlt : n < 10
    · have hdigit := digitOf_ofNat n hlt
      rw [decimalBytes_of_lt hlt, absorb]
      simp only [hdigit, Nat.mul_zero, Nat.zero_add, if_pos h]
      rfl
    · have hdigit := digitOf_ofNat (n % 10) (by omega)
      have hlast := absorb_append (d := UInt8.ofNat (48 + n % 10)) (ih (n / 10) (by omega) (by omega))
        (by rw [hdigit]; omega)
      have hvalue : 10 * (n / 10) + n % 10 = n := by omega
      rw [decimalBytes_of_le (by omega), hlast, hdigit, hvalue]

/-! ## Numbers -/

/-- Bytes with which a number before them does not go on. -/
def EndsNumber (rest : List UInt8) : Prop :=
  ∀ b ∈ rest.head?, isDigitByte b = false ∧ b ≠ 0x2E ∧ b ≠ 0x65 ∧ b ≠ 0x45

theorem EndsNumber.nil : EndsNumber [] := nofun

theorem EndsNumber.cons {b : UInt8} {rest : List UInt8}
    (h : isDigitByte b = false ∧ b ≠ 0x2E ∧ b ≠ 0x65 ∧ b ≠ 0x45) : EndsNumber (b :: rest) := by
  intro other hother
  cases hother
  exact h

theorem afterWhole_of_endsNumber {negative : Bool} {digits rest : List UInt8} {n : Nat}
    (hdigits : absorb 0 digits = (n, [])) (hrest : EndsNumber rest) :
    afterWhole negative digits rest = .ok (.num (whole negative n), rest) := by
  rw [afterWhole, hdigits]
  simp only
  split
  · exact absurd rfl (hrest _ rfl).2.1
  · exact absurd rfl (hrest _ rfl).2.2.1
  · exact absurd rfl (hrest _ rfl).2.2.2
  · rfl

theorem EndsNumber.head {rest : List UInt8} (h : EndsNumber rest) :
    ∀ b ∈ rest.head?, isDigitByte b = false :=
  fun b hb => (h b hb).1

/-- Digits end where no digit follows. -/
theorem takeWhile_digits {digits rest : List UInt8} (h : ∀ b ∈ digits, isDigitByte b = true)
    (hrest : ∀ b ∈ rest.head?, isDigitByte b = false) :
    (digits ++ rest).takeWhile isDigitByte = digits
      ∧ (digits ++ rest).dropWhile isDigitByte = rest := by
  rw [List.takeWhile_append_of_pos h, List.dropWhile_append_of_pos h]
  cases rest with
  | nil => simp
  | cons b rest => simp [hrest b rfl]

theorem number_decimal (negative : Bool) {n : Nat} {rest : List UInt8} (h : n < UInt64.size)
    (hrest : EndsNumber rest) :
    number negative (decimalBytes n ++ rest) = .ok (.num (whole negative n), rest) := by
  cases Nat.eq_zero_or_pos n with
  | inl hzero =>
    subst hzero
    have hdigits : absorb 0 [0x30] = (0, []) := by decide
    have hdigit : isDigitByte 0x30 = true := by decide
    rw [decimalBytes_of_lt (by omega)]
    show number negative (0x30 :: rest) = _
    unfold number
    cases rest with
    | nil => simp [hdigit, afterWhole_of_endsNumber hdigits hrest]
    | cons b rest => simp [hdigit, (hrest b rfl).1, afterWhole_of_endsNumber hdigits hrest]
  | inr hpos =>
    obtain ⟨b, digits, heq, hne⟩ := decimalBytes_head n
    have hall := isDigitByte_of_mem n
    have hsplit := takeWhile_digits hall hrest.head
    have hdigit : isDigitByte b = true := hall b (heq ▸ List.mem_cons_self)
    have hdigits := absorb_decimal h
    rw [heq] at hsplit hdigits ⊢
    rw [List.cons_append] at hsplit ⊢
    unfold number
    simp only [hdigit, hne hpos, hsplit, Bool.not_true, Bool.false_eq_true, if_false]
    exact afterWhole_of_endsNumber hdigits hrest

/-- The whole numbers of 64 bits, signed or unsigned. -/
def Fits (n : Int) : Prop := Text.minInt64 ≤ n ∧ n ≤ Text.maxUInt64

instance (n : Int) : Decidable (Fits n) := inferInstanceAs (Decidable (_ ∧ _))

theorem skipSpace_cons {b : UInt8} {s : List UInt8} (h : isSpace b = false) :
    skipSpace (b :: s) = b :: s := by
  rw [skipSpace, List.dropWhile_cons_of_neg (by simp [h])]

theorem isSpace_digit {b : UInt8} (h : isDigitByte b = true) : isSpace b = false := by
  cases hs : isSpace b with
  | false => rfl
  | true =>
    simp only [isSpace, Bool.or_eq_true, beq_iff_eq] at hs
    rcases hs with ((rfl | rfl) | rfl) | rfl <;> exact absurd h (by decide)

/-- A value that begins with a digit is a number. -/
theorem valueWith_digit {list record : Reader Json} {b : UInt8} {s : List UInt8}
    (h : isDigitByte b = true) : valueWith list record (b :: s) = number false (b :: s) := by
  have hne : ∀ other : UInt8, isDigitByte other = false → b ≠ other := by
    rintro other hother rfl
    exact absurd (h.symm.trans hother) nofun
  unfold valueWith
  rw [skipSpace_cons (isSpace_digit h)]
  simp only
  rw [if_neg (hne 0x6E (by decide)), if_neg (hne 0x74 (by decide)), if_neg (hne 0x66 (by decide)),
    if_neg (hne 0x22 (by decide)), if_neg (hne 0x5B (by decide)), if_neg (hne 0x7B (by decide)),
    if_neg (hne 0x2D (by decide)), if_pos h]

/-- **A whole number of 64 bits is read as it was written.** -/
theorem valueWith_int {list record : Reader Json} {n : Int} {rest : List UInt8} (h : Fits n)
    (hrest : EndsNumber rest) :
    valueWith list record (Utf8.encode (Text.decimalInt n) ++ rest) =
      .ok (.num (.int n), rest) := by
  have hmin : Text.minInt64 = -0x8000000000000000 := rfl
  have hmax : Text.maxUInt64 = 0xFFFFFFFFFFFFFFFF := rfl
  have hsize : UInt64.size = 0x10000000000000000 := rfl
  obtain ⟨hlow, hhigh⟩ := h
  cases n with
  | ofNat n =>
    rw [Int.ofNat_eq_natCast] at hhigh
    have hread := number_decimal false (n := n) (by omega) hrest
    obtain ⟨b, digits, heq, _⟩ := decimalBytes_head n
    have hdigit := isDigitByte_of_mem n b (heq ▸ List.mem_cons_self)
    show valueWith list record (decimalBytes n ++ rest) = _
    rw [heq, List.cons_append] at hread ⊢
    rw [valueWith_digit hdigit, hread]
    rfl
  | negSucc n =>
    have hread := number_decimal true (n := n + 1) (by omega) hrest
    show valueWith list record (0x2D :: (decimalBytes (n + 1) ++ rest)) = _
    have hwhole : whole true (n + 1) = .int (Int.negSucc n) := by
      have hguard : ¬ (n + 1 = 0 || 0x8000000000000000 < n + 1) = true := by
        rw [Bool.or_eq_true, decide_eq_true_iff, decide_eq_true_iff]
        omega
      rw [whole, if_neg (by decide), if_neg hguard, Int.negSucc_eq]
      rfl
    rw [hwhole] at hread
    exact hread

/-! ## Inside a string -/

variable {start read s : List UInt8}

/-- A byte that stands for itself inside a string. -/
def PlainByte (b : UInt8) : Prop := b ≠ 0x22 ∧ b ≠ 0x5C ∧ ¬ b < 0x20

theorem plainByte_ofNat {n : Nat} (hlow : 0x20 ≤ n) (hhigh : n < 256) (hquote : n ≠ 0x22)
    (hslash : n ≠ 0x5C) : PlainByte (UInt8.ofNat n) := by
  have hn := Utf8.toNat_byte hhigh
  refine ⟨fun h => hquote ?_, fun h => hslash ?_, ?_⟩
  · rw [← hn, h]
    rfl
  · rw [← hn, h]
    rfl
  · rw [UInt8.lt_iff_toNat_lt, hn]
    exact Nat.not_lt.2 hlow

/-- No byte of a longer encoding is a quotation mark, a backslash or a control character. -/
theorem plainByte_of_mem_encodeChar {c : Char} (hlow : 0x20 ≤ c.toNat) (hquote : c.toNat ≠ 0x22)
    (hslash : c.toNat ≠ 0x5C) : ∀ b ∈ Utf8.encodeChar c, PlainByte b := by
  have hrange := Utf8.toNat_range c
  intro b hb
  unfold Utf8.encodeChar at hb
  simp only at hb
  split at hb
  · rw [List.mem_singleton.1 hb]
    exact plainByte_ofNat hlow (by omega) hquote hslash
  · split at hb
    · simp only [List.mem_cons, List.not_mem_nil, or_false] at hb
      rcases hb with rfl | rfl <;>
        exact plainByte_ofNat (by omega) (by omega) (by omega) (by omega)
    · split at hb
      · simp only [List.mem_cons, List.not_mem_nil, or_false] at hb
        rcases hb with rfl | rfl | rfl <;>
          exact plainByte_ofNat (by omega) (by omega) (by omega) (by omega)
      · simp only [List.mem_cons, List.not_mem_nil, or_false] at hb
        rcases hb with rfl | rfl | rfl | rfl <;>
          exact plainByte_ofNat (by omega) (by omega) (by omega) (by omega)

theorem stringFrom_more {state next : StringState} {b : UInt8} {bytes : List UInt8}
    (h : stringStep state b = .more next bytes) :
    stringFrom start state read (b :: s) = stringFrom start next (bytes.reverse ++ read) s := by
  rw [stringFrom, h]

theorem stringFrom_plain {bytes : List UInt8} (h : ∀ b ∈ bytes, PlainByte b) :
    stringFrom start .plain read (bytes ++ s) =
      stringFrom start .plain (bytes.reverse ++ read) s := by
  induction bytes generalizing read with
  | nil => rfl
  | cons b bytes ih =>
    obtain ⟨hquote, hslash, hcontrol⟩ := h b List.mem_cons_self
    have hstep : stringStep .plain b = .more .plain [b] := by
      simp only [stringStep, if_neg hquote, if_neg hslash, if_neg hcontrol]
    have hbytes : ∀ other ∈ bytes, PlainByte other :=
      fun other hmem => h other (List.mem_cons_of_mem _ hmem)
    rw [List.cons_append, stringFrom_more hstep, ih hbytes]
    simp only [List.reverse_cons, List.reverse_nil, List.nil_append, List.append_assoc]

/-- An escape of one letter. -/
theorem stringFrom_letter {b c : UInt8} (hb : b ≠ 0x75) (h : letterEscape? b = some c) :
    stringFrom start .plain read (0x5C :: b :: s) = stringFrom start .plain (c :: read) s := by
  have hopen : stringStep .plain 0x5C = .more .escaped [] := rfl
  have hletter : stringStep .escaped b = .more .plain [c] := by
    simp only [stringStep, if_neg hb, h]
  rw [stringFrom_more hopen, stringFrom_more hletter]
  rfl

/-- Four digits of an escape: what they lead to is left to the last one. -/
theorem stringFrom_digits (lead : Option Nat) (p q r b : UInt8) :
    stringFrom start (.hex lead []) read (p :: q :: r :: b :: s) =
      stringFrom start (.hex lead [r, q, p]) read (b :: s) := by
  have hdigit (digits : List UInt8) (byte : UInt8) (hlen : digits.length < 3) :
      stringStep (.hex lead digits) byte = .more (.hex lead (byte :: digits)) [] := by
    simp only [stringStep, if_pos hlen]
  rw [stringFrom_more (hdigit _ _ (by simp)), stringFrom_more (hdigit _ _ (by simp)),
    stringFrom_more (hdigit _ _ (by simp))]
  rfl

end ScriptedChat.Json
