import ScriptedChat.Proofs.Json.Grammar
import ScriptedChat.Proofs.Json.Scalar

/-!
# Numbers and strings of the grammar are read in one piece

Whatever stands after a number or a string, the reader takes all of its text and
no more, or refuses it; and neither the value nor the refusal depends on what
stands there.

* `Answers` — a value with the bytes left over, or a fault;
* `Sees`, `alone` — a reader's answer to a text, whatever stands after it, and
  to the text alone;
* `sees_exponent`, `sees_fraction`, `sees_number` — numbers, part by part;
* `CharText.passes`, `sees_string` — strings, by induction over their characters.
-/

namespace ScriptedChat.Json

/-- An answer is a value with the given bytes left over, or a fault where there is no value. -/
def Answers {α : Type} (answer : Except Fault (α × List UInt8)) : Option α → List UInt8 → Prop
  | some v, rest => answer = .ok (v, rest)
  | none, _ => ∃ fault, answer = .error fault

/-- What a reader makes of a text does not depend on what stands after it. -/
def Sees {α : Type} (reader : Reader α) (text : List Char) (outcome : Option α) : Prop :=
  ∀ rest, EndsNumber rest → Answers (reader (Utf8.encode text ++ rest)) outcome rest

/-- What a reader makes of a text with nothing after it. -/
def alone {α : Type} (reader : Reader α) (text : List Char) : Option α :=
  (reader (Utf8.encode text)).toOption.map Prod.fst

theorem Sees.eq_alone {α : Type} {reader : Reader α} {text : List Char} {outcome : Option α}
    (h : Sees reader text outcome) : alone reader text = outcome := by
  have hread := h [] .nil
  rw [List.append_nil] at hread
  unfold alone
  cases outcome with
  | some v =>
    rw [show reader (Utf8.encode text) = .ok (v, []) from hread]
    rfl
  | none =>
    obtain ⟨fault, hread⟩ := hread
    rw [hread]
    rfl

theorem Sees.sees_alone {α : Type} {reader : Reader α} {text : List Char} {outcome : Option α}
    (h : Sees reader text outcome) : Sees reader text (alone reader text) :=
  h.eq_alone ▸ h

/-! ## Digits -/

theorem encodeChar_ascii {c : Char} (h : c.toNat < 0x80) :
    Utf8.encodeChar c = [UInt8.ofNat c.toNat] := by
  rw [Utf8.encodeChar]
  exact if_pos h

theorem encodeChar_digit {c : Char} (h : Text.isDigit c = true) :
    Utf8.encodeChar c = [UInt8.ofNat c.toNat] ∧ isDigitByte (UInt8.ofNat c.toNat) = true := by
  have hrange : 48 ≤ c.toNat ∧ c.toNat ≤ 57 := by simpa [Text.isDigit] using h
  have hbyte := Utf8.toNat_byte (n := c.toNat) (by omega)
  constructor
  · exact encodeChar_ascii (by omega)
  · rw [isDigitByte, hbyte, Bool.and_eq_true, decide_eq_true_iff, decide_eq_true_iff]
    omega

theorem isDigitByte_of_digits {text : List Char} (h : ∀ c ∈ text, Text.isDigit c = true) :
    ∀ b ∈ Utf8.encode text, isDigitByte b = true := by
  intro b hb
  obtain ⟨c, hc, hb⟩ := List.mem_flatMap.1 hb
  obtain ⟨hencode, hdigit⟩ := encodeChar_digit (h c hc)
  rw [hencode] at hb
  exact List.mem_singleton.1 hb ▸ hdigit

theorem Digits.bytes {text : List Char} (h : Digits text) :
    ∃ b bytes, Utf8.encode text = b :: bytes ∧ ∀ d ∈ b :: bytes, isDigitByte d = true := by
  have hall := isDigitByte_of_digits h.digits
  cases text with
  | nil => exact absurd rfl h.ne_nil
  | cons c text =>
    obtain ⟨hencode, -⟩ := encodeChar_digit (h.digits c List.mem_cons_self)
    rw [Utf8.encode_cons, hencode, List.singleton_append] at hall ⊢
    exact ⟨_, _, rfl, hall⟩

theorem Digits.first_ne {text : List Char} {b : UInt8} {bytes : List UInt8} (h : Digits text)
    (hfirst : text.head? ≠ some '0') (hbytes : Utf8.encode text = b :: bytes) : b ≠ 0x30 := by
  rintro rfl
  cases text with
  | nil => exact h.ne_nil rfl
  | cons c text =>
    obtain ⟨hencode, -⟩ := encodeChar_digit (h.digits c List.mem_cons_self)
    rw [Utf8.encode_cons, hencode, List.singleton_append, List.cons.injEq] at hbytes
    have hzero : Utf8.encode [c] = Utf8.encode ['0'] := by
      rw [Utf8.encode_cons, hencode, hbytes.1]
      rfl
    have hc := Utf8.encode_injective hzero
    rw [List.cons.injEq] at hc
    exact hfirst (congrArg some hc.1)

/-! ## Numbers -/

variable (negative : Bool) (significand : Nat) (scale : Int)

/-- The floating-point number with the given parts, if it is finite. -/
def realOf? : Option Json :=
  (scaled? significand scale).map fun x => .num (.real (x.withSign negative))

theorem answers_real (rest : List UInt8) :
    Answers (real negative significand scale rest) (realOf? negative significand scale) rest := by
  unfold real realOf?
  cases scaled? significand scale with
  | some x => rfl
  | none => exact ⟨_, rfl⟩

/-- The number that the digits of an exponent lead to. -/
def exponentOf? (down : Bool) (digits : List UInt8) : Option Json :=
  match exponentValue 0 digits with
  | .inl e => realOf? negative significand (if down then scale - e else scale + e)
  | .inr _ =>
    if significand ≠ 0 && ! down then none
    else some (.num (.real (Binary64.zero.withSign negative)))

theorem sees_exponentDigits (down : Bool) {text : List Char} (h : Digits text) :
    Sees (exponentDigits negative significand scale down) text
      (exponentOf? negative significand scale down (Utf8.encode text)) := by
  intro rest hrest
  obtain ⟨b, bytes, hbytes, hdigits⟩ := h.bytes
  obtain ⟨htake, hdrop⟩ := takeWhile_digits hdigits hrest.head
  have hdigit : (!isDigitByte b) = false := by
    rw [hdigits _ List.mem_cons_self]
    rfl
  rw [hbytes]
  rw [List.cons_append] at htake hdrop ⊢
  unfold exponentDigits exponentOf?
  simp only [hdigit, htake, hdrop, Bool.false_eq_true, if_false]
  cases exponentValue 0 (b :: bytes) with
  | inl e => exact answers_real _ _ _ _
  | inr more =>
    dsimp only
    split
    · exact ⟨_, rfl⟩
    · rfl

theorem exponent_unsigned {s : List UInt8} (hplus : s.head? ≠ some 0x2B)
    (hminus : s.head? ≠ some 0x2D) :
    exponent negative significand scale s =
      exponentDigits negative significand scale false s := by
  unfold exponent
  split
  · exact absurd rfl hplus
  · exact absurd rfl hminus
  · rfl

theorem sees_exponent {sign text : List Char} (hsign : sign = [] ∨ sign = ['+'] ∨ sign = ['-'])
    (htext : Digits text) :
    Sees (exponent negative significand scale) (sign ++ text)
      (exponentOf? negative significand scale (sign = ['-']) (Utf8.encode text)) := by
  intro rest hrest
  rcases hsign with rfl | rfl | rfl
  · obtain ⟨b, bytes, hbytes, hdigits⟩ := htext.bytes
    have hne (other : UInt8) (hother : isDigitByte other = false) :
        (Utf8.encode text ++ rest).head? ≠ some other := by
      rw [hbytes, List.cons_append, List.head?_cons]
      rintro ⟨⟩
      exact absurd (hother.symm.trans (hdigits _ List.mem_cons_self)) nofun
    rw [List.nil_append, exponent_unsigned negative significand scale (hne 0x2B (by decide))
      (hne 0x2D (by decide))]
    exact sees_exponentDigits negative significand scale false htext rest hrest
  · exact sees_exponentDigits negative significand scale false htext rest hrest
  · exact sees_exponentDigits negative significand scale true htext rest hrest

/-- What follows the digits of a number: an exponent or nothing. -/
theorem sees_afterDigits {text : List Char} (htext : ExponentText text) :
    ∃ outcome, Sees (afterDigits negative significand scale) text outcome := by
  cases htext with
  | none =>
    refine ⟨realOf? negative significand scale, fun rest hrest => ?_⟩
    have hplain : afterDigits negative significand scale rest =
        real negative significand scale rest := by
      unfold afterDigits
      split
      · exact absurd rfl (hrest _ rfl).2.2.1
      · exact absurd rfl (hrest _ rfl).2.2.2
      · rfl
    rw [Utf8.encode_nil, List.nil_append, hplain]
    exact answers_real _ _ _ _
  | digits hmark hsign hdigits =>
    have hexponent := sees_exponent negative significand scale hsign hdigits
    rcases hmark with rfl | rfl
    · exact ⟨_, hexponent⟩
    · exact ⟨_, hexponent⟩

theorem ExponentText.head {text : List Char} (h : ExponentText text) {rest : List UInt8}
    (hrest : EndsNumber rest) :
    ∀ b ∈ (Utf8.encode text ++ rest).head?, isDigitByte b = false ∧ b ≠ 0x2E := by
  cases h with
  | none => exact fun b hb => ⟨(hrest b hb).1, (hrest b hb).2.1⟩
  | digits hmark =>
    rcases hmark with rfl | rfl
    · rintro _ ⟨⟩
      decide
    · rintro _ ⟨⟩
      decide

/-- What follows a decimal point. -/
theorem sees_fraction {digits text : List Char} (hdigits : Digits digits)
    (htext : ExponentText text) :
    ∃ outcome, Sees (fraction negative significand scale) (digits ++ text) outcome := by
  obtain ⟨b, bytes, hbytes, hall⟩ := hdigits.bytes
  obtain ⟨outcome, hsees⟩ := sees_afterDigits negative (absorb significand (b :: bytes)).1
    (scale - ((b :: bytes).length - (absorb significand (b :: bytes)).2.length : Nat)) htext
  refine ⟨outcome, fun rest hrest => ?_⟩
  obtain ⟨htake, hdrop⟩ := takeWhile_digits hall fun c hc => (htext.head hrest c hc).1
  rw [Utf8.encode_append, hbytes, List.append_assoc]
  unfold fraction
  simp only [htake, hdrop, List.isEmpty_cons, Bool.false_eq_true, if_false]
  exact hsees rest hrest

/-- What follows the digits before a decimal point. -/
theorem sees_afterWhole (digits : List UInt8) {fraction exponent : List Char}
    (hfraction : FractionText fraction) (hexponent : ExponentText exponent) :
    ∃ outcome, Sees (afterWhole negative digits) (fraction ++ exponent) outcome := by
  cases hfraction with
  | digits hdigits =>
    obtain ⟨outcome, hsees⟩ := sees_fraction negative (absorb 0 digits).1
      (absorb 0 digits).2.length hdigits hexponent
    exact ⟨outcome, hsees⟩
  | none =>
    cases hexponent with
    | digits hmark hsign hdigits =>
      have hexponent := sees_exponent negative (absorb 0 digits).1 (absorb 0 digits).2.length
        hsign hdigits
      rcases hmark with rfl | rfl
      · exact ⟨_, hexponent⟩
      · exact ⟨_, hexponent⟩
    | none =>
      refine ⟨if (absorb 0 digits).2.isEmpty then
        some (.num (whole negative (absorb 0 digits).1)) else
        realOf? negative (absorb 0 digits).1 (absorb 0 digits).2.length, fun rest hrest => ?_⟩
      rw [List.append_nil, Utf8.encode_nil, List.nil_append]
      unfold afterWhole
      dsimp only
      split
      · exact absurd rfl (hrest _ rfl).2.1
      · exact absurd rfl (hrest _ rfl).2.2.1
      · exact absurd rfl (hrest _ rfl).2.2.2
      · split
        · rfl
        · exact answers_real _ _ _ _

theorem FractionText.head {fraction exponent : List Char} (hfraction : FractionText fraction)
    (hexponent : ExponentText exponent) {rest : List UInt8} (hrest : EndsNumber rest) :
    ∀ b ∈ (Utf8.encode (fraction ++ exponent) ++ rest).head?, isDigitByte b = false := by
  cases hfraction with
  | none => exact fun b hb => (hexponent.head hrest b hb).1
  | digits _ =>
    rintro _ ⟨⟩
    decide

/-- A number after its sign. -/
theorem sees_number {whole fraction exponent : List Char} (hwhole : WholeText whole)
    (hfraction : FractionText fraction) (hexponent : ExponentText exponent) :
    ∃ outcome, Sees (number negative) (whole ++ (fraction ++ exponent)) outcome := by
  cases hwhole with
  | zero =>
    obtain ⟨outcome, hsees⟩ := sees_afterWhole negative [0x30] hfraction hexponent
    refine ⟨outcome, fun rest hrest => ?_⟩
    have hhead := hfraction.head hexponent hrest
    have hnumber : number negative (0x30 :: (Utf8.encode (fraction ++ exponent) ++ rest)) =
        afterWhole negative [0x30] (Utf8.encode (fraction ++ exponent) ++ rest) := by
      have hzero : isDigitByte 0x30 = true := by decide
      unfold number
      cases hmore : Utf8.encode (fraction ++ exponent) ++ rest with
      | nil => simp [hzero]
      | cons b more =>
        rw [hmore] at hhead
        simp [hzero, hhead b rfl]
    show Answers (number negative (0x30 :: (Utf8.encode (fraction ++ exponent) ++ rest))) _ _
    rw [hnumber]
    exact hsees rest hrest
  | digits hdigits hfirst =>
    obtain ⟨b, bytes, hbytes, hall⟩ := hdigits.bytes
    obtain ⟨outcome, hsees⟩ := sees_afterWhole negative (b :: bytes) hfraction hexponent
    refine ⟨outcome, fun rest hrest => ?_⟩
    obtain ⟨htake, hdrop⟩ := takeWhile_digits hall (hfraction.head hexponent hrest)
    have hb := hall b List.mem_cons_self
    have hzero : b ≠ 0x30 := hdigits.first_ne hfirst hbytes
    rw [Utf8.encode_append, hbytes, List.append_assoc]
    rw [List.cons_append] at htake hdrop ⊢
    unfold number
    simp only [hb, hzero, htake, hdrop, Bool.not_true, Bool.false_eq_true, if_false]
    exact hsees rest hrest

/-! ## Strings -/

/-- Where a reader stands between two characters of a string. -/
inductive Between : StringState → Prop where
  | plain : Between .plain
  | afterLead (lead : Nat) : Between (.afterLead lead)

/-- The leading surrogate before a character, if there is one. -/
def StringState.lead? : StringState → Option Nat
  | .afterLead lead => some lead
  | _ => none

/-- The escape of a number. -/
theorem Between.stringFrom_code {state : StringState} (h : Between state)
    {start read s : List UInt8} (p q r b : UInt8) :
    stringFrom start state read (0x5C :: 0x75 :: p :: q :: r :: b :: s) =
      stringFrom start (.hex state.lead? [r, q, p]) read (b :: s) := by
  cases h with
  | plain =>
    have hslash : stringStep .plain 0x5C = .more .escaped [] := rfl
    have hletter : stringStep .escaped 0x75 = .more (.hex none []) [] := rfl
    rw [stringFrom_more hslash, stringFrom_more hletter]
    exact stringFrom_digits none p q r b
  | afterLead lead =>
    have hslash : stringStep (.afterLead lead) 0x5C = .more (.escapedAfterLead lead) [] := rfl
    have hletter : stringStep (.escapedAfterLead lead) 0x75 = .more (.hex (some lead) []) [] := rfl
    rw [stringFrom_more hslash, stringFrom_more hletter]
    exact stringFrom_digits (some lead) p q r b

/-- A text inside a string is refused, or the string goes on after it, whatever stands there. -/
def Passes (state : StringState) (read : List UInt8) (text : List Char) : Prop :=
  (∃ next bytes, Between next ∧ ∀ start s, stringFrom start state read (Utf8.encode text ++ s) =
    stringFrom start next bytes s) ∨
  ∀ start s, ∃ fault, stringFrom start state read (Utf8.encode text ++ s) = .error fault

theorem stringFrom_wrong {start read s : List UInt8} {state : StringState} {b : UInt8}
    {cause : Cause} (h : stringStep state b = .wrong cause) :
    stringFrom start state read (b :: s) = .error ⟨cause, s⟩ := by
  rw [stringFrom, h]
  rfl

theorem passes_plain {c : Char} (hlow : 0x20 ≤ c.toNat) (hquote : c.toNat ≠ 0x22)
    (hslash : c.toNat ≠ 0x5C) {state : StringState} (hstate : Between state) (read : List UInt8) :
    Passes state read [c] := by
  have hplain := plainByte_of_mem_encodeChar hlow hquote hslash
  have hencode : Utf8.encode [c] = Utf8.encodeChar c := List.append_nil _
  rw [Passes, hencode]
  cases hstate with
  | plain => exact .inl ⟨_, _, .plain, fun start s => stringFrom_plain hplain⟩
  | afterLead lead =>
    obtain ⟨b, bytes, hbytes, -⟩ := Utf8.encodeChar_parts c
    have hb := (hplain b (hbytes ▸ List.mem_cons_self)).2.1
    have hstep : stringStep (.afterLead lead) b = .wrong .unexpectedEndOfHexEscape := by
      simp only [stringStep, if_neg hb]
    rw [hbytes]
    exact .inr fun start s => ⟨_, stringFrom_wrong hstep⟩

theorem passes_letter {c : Char} (h : c ∈ ['"', '\\', '/', 'b', 'f', 'n', 'r', 't'])
    {state : StringState} (hstate : Between state) (read : List UInt8) :
    Passes state read ['\\', c] := by
  obtain ⟨b, denoted, hbytes, hb, hdenoted⟩ : ∃ b denoted,
      Utf8.encode ['\\', c] = [0x5C, b] ∧ b ≠ 0x75 ∧ letterEscape? b = some denoted := by
    simp only [List.mem_cons, List.not_mem_nil, or_false] at h
    rcases h with rfl | rfl | rfl | rfl | rfl | rfl | rfl | rfl
    all_goals exact ⟨_, _, rfl, by decide, rfl⟩
  rw [Passes, hbytes]
  cases hstate with
  | plain => exact .inl ⟨_, _, .plain, fun start s => stringFrom_letter hb hdenoted⟩
  | afterLead lead =>
    have hopen : stringStep (.afterLead lead) 0x5C = .more (.escapedAfterLead lead) [] := rfl
    have hstep : stringStep (.escapedAfterLead lead) b = .wrong .unexpectedEndOfHexEscape := by
      simp only [stringStep, if_neg hb]
    refine .inr fun start s => ⟨⟨.unexpectedEndOfHexEscape, s⟩, ?_⟩
    rw [List.cons_append, stringFrom_more hopen]
    exact stringFrom_wrong hstep

/-- An escape of four digits leads between two characters, or is refused. -/
theorem unicodeEscape_cases (lead : Option Nat) (digits : List UInt8) :
    (∃ next bytes, Between next ∧ unicodeEscape lead digits = .more next bytes) ∨
      ∃ cause, unicodeEscape lead digits = .wrong cause := by
  unfold unicodeEscape
  split
  · exact .inr ⟨_, rfl⟩
  · split
    · exact .inr ⟨_, rfl⟩
    · split
      · exact .inl ⟨_, _, .afterLead _, rfl⟩
      · exact .inl ⟨_, _, .plain, rfl⟩
  · split
    · exact .inl ⟨_, _, .plain, rfl⟩
    · exact .inr ⟨_, rfl⟩

theorem toNat_of_isHex {c : Char} (h : isHex c = true) : c.toNat < 0x80 := by
  have hle (other : Char) : c ≤ other → c.toNat ≤ other.toNat := id
  simp only [isHex, Text.isDigit, Bool.or_eq_true, Bool.and_eq_true, decide_eq_true_eq] at h
  obtain (⟨-, hdigit⟩ | ⟨-, hlower⟩) | ⟨-, hupper⟩ := h
  · omega
  · exact Nat.lt_of_le_of_lt (hle 'f' hlower) (by decide)
  · exact Nat.lt_of_le_of_lt (hle 'F' hupper) (by decide)

theorem encodeChar_hex {c : Char} (h : isHex c = true) :
    Utf8.encodeChar c = [UInt8.ofNat c.toNat] :=
  encodeChar_ascii (toNat_of_isHex h)

theorem passes_code {a b c d : Char} (h : ∀ digit ∈ [a, b, c, d], isHex digit = true)
    {state : StringState} (hstate : Between state) (read : List UInt8) :
    Passes state read ['\\', 'u', a, b, c, d] := by
  obtain ⟨p, q, r, s, hbytes⟩ : ∃ p q r s,
      Utf8.encode ['\\', 'u', a, b, c, d] = [0x5C, 0x75, p, q, r, s] := by
    refine ⟨UInt8.ofNat a.toNat, UInt8.ofNat b.toNat, UInt8.ofNat c.toNat, UInt8.ofNat d.toNat, ?_⟩
    rw [Utf8.encode_cons, Utf8.encode_cons, Utf8.encode_cons, Utf8.encode_cons, Utf8.encode_cons,
      Utf8.encode_cons, encodeChar_hex (h a (by simp)), encodeChar_hex (h b (by simp)),
      encodeChar_hex (h c (by simp)), encodeChar_hex (h d (by simp))]
    rfl
  have hlast (lead : Option Nat) :
      stringStep (.hex lead [r, q, p]) s = unicodeEscape lead [s, r, q, p] := rfl
  have hread (start rest : List UInt8) :
      stringFrom start state read ([0x5C, 0x75, p, q, r, s] ++ rest) =
        stringFrom start (.hex state.lead? [r, q, p]) read (s :: rest) :=
    hstate.stringFrom_code p q r s
  rw [Passes, hbytes]
  obtain ⟨next, bytes, hnext, hmore⟩ | ⟨cause, hwrong⟩ :=
    unicodeEscape_cases state.lead? [s, r, q, p]
  · refine .inl ⟨next, bytes.reverse ++ read, hnext, fun start rest => ?_⟩
    rw [hread, stringFrom_more ((hlast _).trans hmore)]
  · refine .inr fun start rest => ⟨⟨cause, rest⟩, ?_⟩
    rw [hread, stringFrom_wrong ((hlast _).trans hwrong)]

theorem CharText.passes {part : List Char} (h : CharText part) {state : StringState}
    (hstate : Between state) (read : List UInt8) : Passes state read part := by
  cases h with
  | plain hlow hquote hslash => exact passes_plain hlow hquote hslash hstate read
  | letter hletter => exact passes_letter hletter hstate read
  | code hhex => exact passes_code hhex hstate read

/-- The rest of a string, by induction over its characters: between two of them the reader is in
one of two states. -/
theorem StringText.answers {text : List Char} (h : StringText text) {state : StringState}
    (hstate : Between state) (read : List UInt8) :
    ∃ outcome, ∀ start rest,
      Answers (stringFrom start state read (Utf8.encode text ++ rest)) outcome rest := by
  induction h generalizing state read with
  | close =>
    cases hstate with
    | plain =>
      have hclose : stringStep .plain 0x22 = .close := rfl
      refine ⟨(Utf8.decode? read.reverse).map String.ofList, fun start rest => ?_⟩
      show Answers (stringFrom start .plain read (0x22 :: rest)) _ rest
      rw [stringFrom, hclose]
      dsimp only
      cases Utf8.decode? read.reverse with
      | some text => rfl
      | none => exact ⟨_, rfl⟩
    | afterLead lead =>
      have hwrong : stringStep (.afterLead lead) 0x22 = .wrong .unexpectedEndOfHexEscape := rfl
      exact ⟨none, fun start rest => ⟨_, stringFrom_wrong hwrong⟩⟩
  | more hpart _ ih =>
    obtain ⟨next, bytes, hnext, hpasses⟩ | hrefused := hpart.passes hstate read
    · obtain ⟨outcome, hanswers⟩ := ih hnext bytes
      refine ⟨outcome, fun start rest => ?_⟩
      rw [Utf8.encode_append, List.append_assoc, hpasses]
      exact hanswers start rest
    · refine ⟨none, fun start rest => ?_⟩
      rw [Utf8.encode_append, List.append_assoc]
      exact hrefused start _

/-- A string after its opening mark. -/
theorem sees_string {text : List Char} (h : StringText text) :
    ∃ outcome, Sees string text outcome := by
  obtain ⟨outcome, hanswers⟩ := h.answers .plain []
  exact ⟨outcome, fun rest _ => hanswers _ rest⟩

end ScriptedChat.Json
