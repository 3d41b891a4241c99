import ScriptedChat.Proofs.Json.Meaning

/-!
# Numbers and strings that are taken are those of the grammar

Whatever bytes there are, what the reader takes from the front of them as a
number or as a string is the encoding of one.

* `exists_chars`, `exists_digits`, `exists_gap` — digits and blanks;
* `TakesNumber`, `takes_exponent`, `takes_fraction`, `takes_number` — numbers,
  part by part;
* `Pending`, `Pending.step`, `Pending.run` — the reader inside a string: what it
  has taken of an escape in each state, by one step and by all of them;
* `Pieces.spelling` — the bytes of a string are the encoding of its characters;
* `spelling_of_string` — strings.
-/

namespace ScriptedChat.Json

/-! ## Digits and blanks -/

/-- Bytes of ASCII as characters. -/
def asciiChars (bytes : List UInt8) : List Char :=
  bytes.map fun b => Char.ofNat b.toNat

theorem encode_asciiChars {bytes : List UInt8} (h : ∀ b ∈ bytes, b.toNat < 0x80) :
    Utf8.encode (asciiChars bytes) = bytes := by
  induction bytes with
  | nil => rfl
  | cons b bytes ih =>
    obtain ⟨hb, hbytes⟩ := List.forall_mem_cons.1 h
    rw [asciiChars, List.map_cons, Utf8.encode_cons, Utf8.encodeChar_one hb rfl, ← asciiChars,
      ih hbytes]
    rfl

theorem toNat_of_isDigitByte {b : UInt8} (h : isDigitByte b = true) :
    0x30 ≤ b.toNat ∧ b.toNat ≤ 0x39 := by
  rwa [isDigitByte, Bool.and_eq_true, decide_eq_true_eq, decide_eq_true_eq] at h

theorem exists_digits {bytes : List UInt8} (hne : bytes ≠ [])
    (h : ∀ b ∈ bytes, isDigitByte b = true) : ∃ text, Digits text ∧ Utf8.encode text = bytes := by
  refine ⟨asciiChars bytes, ⟨mt List.map_eq_nil_iff.1 hne, fun c hc => ?_⟩,
    encode_asciiChars fun b hb => ?_⟩
  · obtain ⟨b, hb, rfl⟩ := List.mem_map.1 hc
    obtain ⟨hlow, hhigh⟩ := toNat_of_isDigitByte (h b hb)
    rw [Text.isDigit, Utf8.toNat_ofNat (.inl (by omega)), Bool.and_eq_true, decide_eq_true_eq,
      decide_eq_true_eq]
    exact ⟨hlow, hhigh⟩
  · have hhigh := (toNat_of_isDigitByte (h b hb)).2
    omega

/-- Digits and what is left after them. -/
theorem exists_takeWhile {s : List UInt8} (h : s.takeWhile isDigitByte ≠ []) :
    ∃ text, Digits text ∧ s = Utf8.encode text ++ s.dropWhile isDigitByte := by
  obtain ⟨text, hdigits, hbytes⟩ := exists_digits h
    fun b hb => List.all_eq_true.1 List.all_takeWhile b hb
  exact ⟨text, hdigits, by rw [hbytes, List.takeWhile_append_dropWhile]⟩

/-- The blanks before a text. -/
theorem exists_gap (s : List UInt8) : ∃ gap, Gap gap ∧ s = Utf8.encode gap ++ skipSpace s := by
  have hspace : ∀ b ∈ s.takeWhile isSpace,
      b.toNat = 0x20 ∨ b.toNat = 0x09 ∨ b.toNat = 0x0A ∨ b.toNat = 0x0D := by
    intro b hb
    have hb := List.all_eq_true.1 List.all_takeWhile b hb
    simp only [isSpace, Bool.or_eq_true, beq_iff_eq] at hb
    obtain ((rfl | rfl) | rfl) | rfl := hb
    all_goals decide
  refine ⟨asciiChars (s.takeWhile isSpace), fun c hc => ?_, ?_⟩
  · obtain ⟨b, hb, rfl⟩ := List.mem_map.1 hc
    obtain hb | hb | hb | hb := hspace b hb
    all_goals
      rw [hb]
      decide
  · rw [encode_asciiChars fun b hb => ?_, skipSpace, List.takeWhile_append_dropWhile]
    have := hspace b hb
    omega

/-! ## Numbers -/

/-- What a reader takes from the front of some bytes is a text of the given kind, and what it makes
of it is a number. -/
def TakesNumber (reader : Reader Json) (kind : List Char → Prop) : Prop :=
  ∀ s v rest, reader s = .ok (v, rest) →
    ∃ text n, kind text ∧ v = .num n ∧ s = Utf8.encode text ++ rest

variable (negative : Bool) (significand : Nat) (scale : Int)

theorem takes_real : TakesNumber (real negative significand scale) (· = []) := by
  intro s v rest h
  unfold real at h
  split at h
  · cases h
    exact ⟨[], _, rfl, rfl, rfl⟩
  · cases h

theorem takes_exponentDigits (down : Bool) :
    TakesNumber (exponentDigits negative significand scale down) Digits := by
  intro s v rest h
  unfold exponentDigits at h
  split at h
  · cases h
  rename_i b r
  split at h
  · cases h
  rename_i hdigit
  have htake : (b :: r).takeWhile isDigitByte = b :: r.takeWhile isDigitByte :=
    List.takeWhile_cons_of_pos (by simpa using hdigit)
  obtain ⟨text, htext, hs⟩ := exists_takeWhile (s := b :: r) (htake ▸ List.cons_ne_nil _ _)
  dsimp only at h
  split at h
  · obtain ⟨_, n, rfl, hv, hrest⟩ := takes_real _ _ _ _ _ _ h
    rw [hrest] at hs
    exact ⟨text, n, htext, hv, hs⟩
  -- the condition is about the sign, which does not matter here
  · obtain ⟨-, h⟩ | ⟨-, h⟩ := ite_eq_iff.mp h
    · cases h
    · cases h
      exact ⟨text, _, htext, rfl, hs⟩

/-- The sign and the digits of an exponent. -/
def SignedDigits (text : List Char) : Prop :=
  ∃ sign digits, (sign = [] ∨ sign = ['+'] ∨ sign = ['-']) ∧ Digits digits ∧ text = sign ++ digits

theorem takes_exponent : TakesNumber (exponent negative significand scale) SignedDigits := by
  intro s v rest h
  unfold exponent at h
  split at h
  · obtain ⟨digits, n, hdigits, hv, rfl⟩ := takes_exponentDigits _ _ _ _ _ _ _ h
    exact ⟨_, n, ⟨['+'], digits, .inr (.inl rfl), hdigits, rfl⟩, hv, rfl⟩
  · obtain ⟨digits, n, hdigits, hv, rfl⟩ := takes_exponentDigits _ _ _ _ _ _ _ h
    exact ⟨_, n, ⟨['-'], digits, .inr (.inr rfl), hdigits, rfl⟩, hv, rfl⟩
  · obtain ⟨digits, n, hdigits, hv, hs⟩ := takes_exponentDigits _ _ _ _ _ _ _ h
    exact ⟨_, n, ⟨[], digits, .inl rfl, hdigits, rfl⟩, hv, hs⟩

theorem SignedDigits.exponentText {mark : Char} (hmark : mark = 'e' ∨ mark = 'E')
    {text : List Char} (h : SignedDigits text) : ExponentText (mark :: text) := by
  obtain ⟨sign, digits, hsign, hdigits, rfl⟩ := h
  exact .digits hmark hsign hdigits

theorem takes_afterDigits : TakesNumber (afterDigits negative significand scale) ExponentText := by
  intro s v rest h
  unfold afterDigits at h
  split at h
  · obtain ⟨text, n, htext, hv, rfl⟩ := takes_exponent _ _ _ _ _ _ h
    exact ⟨'e' :: text, n, htext.exponentText (.inl rfl), hv, rfl⟩
  · obtain ⟨text, n, htext, hv, rfl⟩ := takes_exponent _ _ _ _ _ _ h
    exact ⟨'E' :: text, n, htext.exponentText (.inr rfl), hv, rfl⟩
  · obtain ⟨_, n, rfl, hv, hs⟩ := takes_real _ _ _ _ _ _ h
    exact ⟨[], n, .none, hv, hs⟩

/-- A fraction and perhaps an exponent. -/
def FractionalText (text : List Char) : Prop :=
  ∃ fraction exponent, FractionText fraction ∧ ExponentText exponent ∧ text = fraction ++ exponent

theorem takes_fraction : TakesNumber (fraction negative significand scale)
    fun text => FractionalText ('.' :: text) := by
  intro s v rest h
  simp only [fraction] at h
  split at h
  · split at h
    · cases h
    · cases h
  · rename_i hempty
    obtain ⟨digits, hdigits, hs⟩ := exists_takeWhile (mt List.isEmpty_iff.2 hempty)
    obtain ⟨text, n, htext, hv, hdrop⟩ := takes_afterDigits _ _ _ _ _ _ h
    refine ⟨digits ++ text, n, ⟨'.' :: digits, text, .digits hdigits, htext, rfl⟩, hv, ?_⟩
    rw [hs, hdrop, Utf8.encode_append, List.append_assoc]

theorem takes_afterWhole (digits : List UInt8) :
    TakesNumber (afterWhole negative digits) FractionalText := by
  intro s v rest h
  simp only [afterWhole] at h
  split at h
  · obtain ⟨text, n, htext, hv, rfl⟩ := takes_fraction _ _ _ _ _ _ h
    exact ⟨'.' :: text, n, htext, hv, rfl⟩
  · obtain ⟨text, n, htext, hv, rfl⟩ := takes_exponent _ _ _ _ _ _ h
    exact ⟨'e' :: text, n, ⟨[], _, .none, htext.exponentText (.inl rfl), rfl⟩, hv, rfl⟩
  · obtain ⟨text, n, htext, hv, rfl⟩ := takes_exponent _ _ _ _ _ _ h
    exact ⟨'E' :: text, n, ⟨[], _, .none, htext.exponentText (.inr rfl), rfl⟩, hv, rfl⟩
  · split at h
    · cases h
      exact ⟨[], _, ⟨[], [], .none, .none, rfl⟩, rfl, rfl⟩
    · obtain ⟨_, n, rfl, hv, hs⟩ := takes_real _ _ _ _ _ _ h
      exact ⟨[], n, ⟨[], [], .none, .none, rfl⟩, hv, hs⟩

/-- A number without a sign. -/
def UnsignedText (text : List Char) : Prop :=
  ∃ whole more, WholeText whole ∧ FractionalText more ∧ text = whole ++ more

theorem takes_number : TakesNumber (number negative) UnsignedText := by
  intro s v rest h
  unfold number at h
  split at h
  · cases h
  rename_i b r
  split at h
  · cases h
  rename_i hdigit
  split at h
  · rename_i hzero
    subst hzero
    have hafter : afterWhole negative [0x30] r = .ok (v, rest) := by
      split at h
      · exact h
      · split at h
        · cases h
        · exact h
    obtain ⟨text, n, htext, hv, rfl⟩ := takes_afterWhole _ _ _ _ _ hafter
    exact ⟨'0' :: text, n, ⟨['0'], text, .zero, htext, rfl⟩, hv, rfl⟩
  · rename_i hzero
    have htake : (b :: r).takeWhile isDigitByte = b :: r.takeWhile isDigitByte :=
      List.takeWhile_cons_of_pos (by simpa using hdigit)
    obtain ⟨digits, hdigits, hs⟩ := exists_takeWhile (s := b :: r)
      (htake ▸ List.cons_ne_nil _ _)
    obtain ⟨text, n, htext, hv, hdrop⟩ := takes_afterWhole _ _ _ _ _ h
    have hfirst : digits.head? ≠ some '0' := by
      intro hhead
      obtain ⟨more, rfl⟩ := List.head?_eq_some_iff.1 hhead
      exact hzero (List.cons.inj hs).1
    refine ⟨digits ++ text, n, ⟨digits, text, .digits hdigits hfirst, htext, rfl⟩, hv, ?_⟩
    rw [hs, hdrop, Utf8.encode_append, List.append_assoc]

theorem UnsignedText.numberText {sign text : List Char} (hsign : sign = [] ∨ sign = ['-'])
    (h : UnsignedText text) : NumberText (sign ++ text) := by
  obtain ⟨whole, _, hwhole, ⟨fraction, exponent, hfraction, hexponent, rfl⟩, rfl⟩ := h
  exact .parts hsign hwhole hfraction hexponent

/-! ## Bytes of a string -/

/-- Bytes of the source of a string, with the bytes that they stand for. -/
inductive Piece : List UInt8 → List UInt8 → Prop where
  | byte {b : UInt8} (plain : PlainByte b) : Piece [b] [b]
  | escape {part : List Char} {c : Char} (escape : EscapeText part c) :
    Piece (Utf8.encode part) (Utf8.encodeChar c)

inductive Pieces : List UInt8 → List UInt8 → Prop where
  | nil : Pieces [] []
  | cons {front bytes source denoted : List UInt8} (piece : Piece front bytes)
    (more : Pieces source denoted) : Pieces (front ++ source) (bytes ++ denoted)

/-- What has been taken of an escape in a state inside a string. -/
inductive Pending : StringState → List UInt8 → Prop where
  | plain : Pending .plain []
  | escaped : Pending .escaped [0x5C]
  | hex {digits : List UInt8} (few : digits.length < 4) :
    Pending (.hex none digits) (0x5C :: 0x75 :: digits.reverse)
  | afterLead {part : List Char} {lead : Nat} (code : CodeText part lead)
    (leads : LeadingHalf lead) : Pending (.afterLead lead) (Utf8.encode part)
  | escapedAfterLead {part : List Char} {lead : Nat} (code : CodeText part lead)
    (leads : LeadingHalf lead) : Pending (.escapedAfterLead lead) (Utf8.encode part ++ [0x5C])
  | hexAfterLead {part : List Char} {lead : Nat} {digits : List UInt8} (code : CodeText part lead)
    (leads : LeadingHalf lead) (few : digits.length < 4) :
    Pending (.hex (some lead) digits) (Utf8.encode part ++ 0x5C :: 0x75 :: digits.reverse)

/-- What a byte leads to: an escape goes on, or a piece of the string is complete. -/
def Advances (pending : List UInt8) (b : UInt8) (next : StringState) (bytes : List UInt8) : Prop :=
  (bytes = [] ∧ Pending next (pending ++ [b])) ∨ (next = .plain ∧ Piece (pending ++ [b]) bytes)

theorem exists_letterEscape {b c : UInt8} (h : letterEscape? b = some c) :
    ∃ entry ∈ letterEscapes, Utf8.encodeChar entry.1 = [b] ∧ Utf8.encodeChar entry.2 = [c] := by
  unfold letterEscape? at h
  split at h
  · rename_i hb
    cases h
    simp only [Bool.or_eq_true, decide_eq_true_eq] at hb
    obtain (rfl | rfl) | rfl := hb
    all_goals decide
  repeat' split at h
  all_goals cases h
  all_goals
    subst b
    decide

/-- What a complete escape without a leading half before it stands for. -/
theorem unicodeEscape_none {p q r b : UInt8} {next : StringState} {bytes : List UInt8}
    (h : unicodeEscape none [b, r, q, p] = .more next bytes) :
    ∃ part n, CodeText part n ∧ Utf8.encode part = [0x5C, 0x75, p, q, r, b] ∧
      ((LeadingHalf n ∧ next = .afterLead n ∧ bytes = []) ∨
        (¬ LeadingHalf n ∧ ¬ TrailingHalf n ∧ next = .plain ∧
          bytes = Utf8.encodeChar (Char.ofNat n))) := by
  unfold unicodeEscape at h
  split at h
  · cases h
  · rename_i n hn _
    obtain ⟨part, hcode, hpart⟩ := CodeText.exists_of_bytes hn
    refine ⟨part, n, hcode, hpart, ?_⟩
    split at h
    · cases h
    rename_i htrail
    rw [Bool.and_eq_true, decide_eq_true_eq, decide_eq_true_eq] at htrail
    split at h
    · rename_i hlead
      rw [Bool.and_eq_true, decide_eq_true_eq, decide_eq_true_eq] at hlead
      cases h
      exact .inl ⟨hlead, rfl, rfl⟩
    · rename_i hlead
      rw [Bool.and_eq_true, decide_eq_true_eq, decide_eq_true_eq] at hlead
      cases h
      exact .inr ⟨hlead, htrail, rfl, rfl⟩
  · rename_i hsome
    cases hsome

/-- What a complete escape after a leading half stands for together with it. -/
theorem unicodeEscape_some {lead : Nat} {p q r b : UInt8} {next : StringState}
    {bytes : List UInt8} (h : unicodeEscape (some lead) [b, r, q, p] = .more next bytes) :
    ∃ part n, CodeText part n ∧ Utf8.encode part = [0x5C, 0x75, p, q, r, b] ∧
      TrailingHalf n ∧ next = .plain ∧ bytes = Utf8.encodeChar (pairChar lead n) := by
  unfold unicodeEscape at h
  split at h
  · cases h
  · rename_i hnone
    cases hnone
  · rename_i n lead' hn heq
    cases heq
    obtain ⟨part, hcode, hpart⟩ := CodeText.exists_of_bytes hn
    split at h
    · rename_i htrail
      rw [Bool.and_eq_true, decide_eq_true_eq, decide_eq_true_eq] at htrail
      cases h
      exact ⟨part, n, hcode, hpart, htrail, rfl, rfl⟩
    · cases h

/-- Three digits. -/
theorem exists_three {digits : List UInt8} (hfew : digits.length < 4)
    (hmany : ¬ digits.length < 3) : ∃ p q r, digits = [r, q, p] := by
  have hlength : digits.length = 3 := by omega
  obtain ⟨r, q, p, rfl⟩ := List.length_eq_three.1 hlength
  exact ⟨p, q, r, rfl⟩

/-- A digit of an escape. -/
theorem advances_hex {next : StringState} {digits bytes : List UInt8} {b : UInt8}
    (hfew : digits.length < 4) (hstep : stringStep (.hex none digits) b = .more next bytes) :
    Advances (0x5C :: 0x75 :: digits.reverse) b next bytes := by
  unfold stringStep at hstep
  dsimp only at hstep
  split at hstep
  · rename_i hlength
    cases hstep
    have hpending := @Pending.hex (b :: digits) (Nat.succ_lt_succ hlength)
    rw [List.reverse_cons] at hpending
    exact .inl ⟨rfl, hpending⟩
  · rename_i hlength
    obtain ⟨p, q, r, rfl⟩ := exists_three hfew hlength
    obtain ⟨part, n, hcode, hpart, ⟨hlead, rfl, rfl⟩ | ⟨hlead, htrail, rfl, rfl⟩⟩ :=
      unicodeEscape_none hstep
    · have hpending := Pending.afterLead hcode hlead
      rw [hpart] at hpending
      exact .inl ⟨rfl, hpending⟩
    · have hpiece := Piece.escape (.code hcode hlead htrail)
      rw [hpart] at hpiece
      exact .inr ⟨rfl, hpiece⟩

/-- A digit of the second escape of two that stand for one character. -/
theorem advances_hexAfterLead {next : StringState} {part : List Char} {lead : Nat}
    {digits bytes : List UInt8} {b : UInt8} (hcode : CodeText part lead) (hlead : LeadingHalf lead)
    (hfew : digits.length < 4) (hstep : stringStep (.hex (some lead) digits) b = .more next bytes) :
    Advances (Utf8.encode part ++ 0x5C :: 0x75 :: digits.reverse) b next bytes := by
  unfold stringStep at hstep
  dsimp only at hstep
  split at hstep
  · rename_i hlength
    cases hstep
    have hpending := @Pending.hexAfterLead part lead (b :: digits) hcode hlead
      (Nat.succ_lt_succ hlength)
    rw [List.reverse_cons] at hpending
    refine .inl ⟨rfl, ?_⟩
    rw [List.append_assoc]
    exact hpending
  · rename_i hlength
    obtain ⟨p, q, r, rfl⟩ := exists_three hfew hlength
    obtain ⟨second, n, hsecond, hpart, htrail, rfl, hbytes⟩ := unicodeEscape_some hstep
    have hpiece := Piece.escape (.pair hcode hlead hsecond htrail)
    rw [Utf8.encode_append, hpart, ← hbytes] at hpiece
    refine .inr ⟨rfl, ?_⟩
    rw [List.append_assoc]
    exact hpiece

/-- **One byte inside a string**, by the states in which the reader may stand. -/
theorem Pending.step {state next : StringState} {pending bytes : List UInt8} {b : UInt8}
    (h : Pending state pending) (hstep : stringStep state b = .more next bytes) :
    Advances pending b next bytes := by
  cases h with
  | hex hfew => exact advances_hex hfew hstep
  | hexAfterLead hcode hlead hfew => exact advances_hexAfterLead hcode hlead hfew hstep
  | plain =>
    unfold stringStep at hstep
    dsimp only at hstep
    split at hstep
    · cases hstep
    rename_i hquote
    split at hstep
    · rename_i hslash
      subst hslash
      cases hstep
      exact .inl ⟨rfl, .escaped⟩
    rename_i hslash
    split at hstep
    · cases hstep
    rename_i hcontrol
    cases hstep
    exact .inr ⟨rfl, .byte ⟨hquote, hslash, hcontrol⟩⟩
  | escaped =>
    unfold stringStep at hstep
    dsimp only at hstep
    split at hstep
    · rename_i hletter
      subst hletter
      cases hstep
      exact .inl ⟨rfl, @Pending.hex [] (by decide)⟩
    split at hstep
    · rename_i c hc
      cases hstep
      obtain ⟨⟨letter, denoted⟩, hmem, hletter, hdenoted⟩ := exists_letterEscape hc
      have hpiece := Piece.escape (.letter hmem)
      rw [Utf8.encode_cons, Utf8.encode_cons, hletter, hdenoted] at hpiece
      exact .inr ⟨rfl, hpiece⟩
    · cases hstep
  | afterLead hcode hlead =>
    unfold stringStep at hstep
    dsimp only at hstep
    split at hstep
    · rename_i hslash
      subst hslash
      cases hstep
      exact .inl ⟨rfl, .escapedAfterLead hcode hlead⟩
    · cases hstep
  | @escapedAfterLead part lead hcode hlead =>
    unfold stringStep at hstep
    dsimp only at hstep
    split at hstep
    · rename_i hletter
      subst hletter
      cases hstep
      refine .inl ⟨rfl, ?_⟩
      rw [List.append_assoc]
      exact @Pending.hexAfterLead part lead [] hcode hlead (by decide)
    · cases hstep

/-- Only between two characters is a string closed. -/
theorem Pending.close {state : StringState} {pending : List UInt8} {b : UInt8}
    (h : Pending state pending) (hstep : stringStep state b = .close) :
    pending = [] ∧ b = 0x22 := by
  have hunicode (lead : Option Nat) (digits : List UInt8) :
      unicodeEscape lead digits ≠ .close := by
    intro hclose
    obtain ⟨_, _, -, hmore⟩ | ⟨_, hwrong⟩ := unicodeEscape_cases lead digits
    · exact absurd (hmore.symm.trans hclose) nofun
    · exact absurd (hwrong.symm.trans hclose) nofun
  cases h with
  | plain =>
    unfold stringStep at hstep
    dsimp only at hstep
    split at hstep
    · exact ⟨rfl, ‹_›⟩
    repeat' split at hstep
    all_goals cases hstep
  | escaped | afterLead | escapedAfterLead =>
    unfold stringStep at hstep
    dsimp only at hstep
    repeat' split at hstep
    all_goals cases hstep
  | hex | hexAfterLead =>
    unfold stringStep at hstep
    dsimp only at hstep
    split at hstep
    · cases hstep
    · exact absurd hstep (hunicode _ _)

/-- **A whole string**, byte by byte: its source is made of pieces up to the closing mark, and what
they stand for is decoded. -/
theorem Pending.run {start read s rest : List UInt8} {state : StringState} {pending : List UInt8}
    {text : String} (h : Pending state pending)
    (hread : stringFrom start state read s = .ok (text, rest)) :
    ∃ source denoted, Pieces source denoted ∧ pending ++ s = source ++ 0x22 :: rest ∧
      Utf8.decode? (read.reverse ++ denoted) = some text.toList := by
  induction s generalizing state read pending with
  | nil => cases hread
  | cons b s ih =>
    rw [stringFrom] at hread
    split at hread
    · rename_i next bytes hstep
      obtain ⟨rfl, hnext⟩ | ⟨rfl, hpiece⟩ := h.step hstep
      · obtain ⟨source, denoted, hpieces, hs, hdecode⟩ := ih hnext hread
        rw [List.append_assoc] at hs
        exact ⟨source, denoted, hpieces, hs, hdecode⟩
      · obtain ⟨source, denoted, hpieces, hs, hdecode⟩ := ih .plain hread
        refine ⟨_, _, .cons hpiece hpieces, ?_, ?_⟩
        · rw [List.append_assoc, List.append_assoc, ← hs]
          rfl
        · rwa [List.reverse_append, List.reverse_reverse, List.append_assoc] at hdecode
    · cases hread
    · rename_i hstep
      obtain ⟨rfl, rfl⟩ := h.close hstep
      split at hread
      · rename_i chars hdecode
        cases hread
        refine ⟨[], [], .nil, rfl, ?_⟩
        rw [List.append_nil, hdecode, String.toList_ofList]
      · cases hread

/-! ## Characters of a string -/

theorem Pieces.eq_nil {source denoted : List UInt8} (h : Pieces source denoted)
    (hnil : denoted = []) : source = [] := by
  cases h with
  | nil => rfl
  | cons hpiece =>
    obtain ⟨hbytes, -⟩ := List.append_eq_nil_iff.1 hnil
    cases hpiece with
    | byte => cases hbytes
    | escape =>
      obtain ⟨b, bytes, hc, -⟩ := Utf8.encodeChar_parts _
      exact absurd (hc.symm.trans hbytes) (List.cons_ne_nil _ _)

/-- A byte that begins no character stands for itself. -/
theorem Pieces.continuation {source denoted bytes rest : List UInt8} (h : Pieces source denoted)
    (hdenoted : denoted = bytes ++ rest) (hbytes : ∀ b ∈ bytes, Utf8.Continues b) :
    ∃ more, source = bytes ++ more ∧ Pieces more rest := by
  induction bytes generalizing source denoted with
  | nil =>
    subst hdenoted
    exact ⟨source, rfl, h⟩
  | cons b bytes ih =>
    obtain ⟨hb, hmany⟩ := List.forall_mem_cons.1 hbytes
    cases h with
    | nil => cases hdenoted
    | cons hpiece hmore =>
      cases hpiece with
      | byte hplain =>
        obtain ⟨rfl, htail⟩ := List.cons.inj hdenoted
        obtain ⟨more, rfl, hrest⟩ := ih hmore htail hmany
        exact ⟨more, rfl, hrest⟩
      | @escape part c =>
        obtain ⟨lead, tail, hc, hlead, -⟩ := Utf8.encodeChar_parts c
        rw [hc] at hdenoted
        obtain ⟨rfl, -⟩ := List.cons.inj hdenoted
        exact absurd hb hlead

/-- The first byte of a character that stands for itself tells that the character does. -/
theorem plain_of_byte {c : Char} {b : UInt8} {bytes : List UInt8} (h : PlainByte b)
    (hc : Utf8.encodeChar c = b :: bytes) :
    0x20 ≤ c.toNat ∧ c.toNat ≠ 0x22 ∧ c.toNat ≠ 0x5C := by
  by_cases hlow : c.toNat < 0x80
  · rw [encodeChar_ascii hlow] at hc
    obtain rfl := (List.cons.inj hc).1
    obtain ⟨hquote, hslash, hcontrol⟩ := h
    refine ⟨?_, ?_, ?_⟩
    · rw [UInt8.lt_iff_toNat_lt, Utf8.toNat_byte (by omega)] at hcontrol
      exact Nat.not_lt.1 hcontrol
    · intro heq
      exact hquote (by rw [heq]; rfl)
    · intro heq
      exact hslash (by rw [heq]; rfl)
  · omega

/-- **The source of a string is the encoding of its characters**, by induction over the text that
its bytes denote. -/
theorem Pieces.spelling {source denoted : List UInt8} (h : Pieces source denoted)
    {text : List Char} (hdenoted : denoted = Utf8.encode text) :
    ∃ body, Spelling (body ++ ['"']) text ∧ Utf8.encode body = source := by
  induction text generalizing source denoted with
  | nil => exact ⟨[], .close, (h.eq_nil hdenoted).symm⟩
  | cons c text ih =>
    cases h with
    | nil =>
      obtain ⟨b, bytes, hc, -⟩ := Utf8.encodeChar_parts c
      rw [Utf8.encode_cons, hc] at hdenoted
      cases hdenoted
    | cons hpiece hmore =>
      cases hpiece with
      | @byte b hplain =>
        obtain ⟨lead, bytes, hc, -, hbytes⟩ := Utf8.encodeChar_parts c
        rw [Utf8.encode_cons, hc] at hdenoted
        obtain ⟨rfl, htail⟩ := List.cons.inj hdenoted
        obtain ⟨more, rfl, hrest⟩ := hmore.continuation htail hbytes
        obtain ⟨body, hbody, rfl⟩ := ih hrest rfl
        obtain ⟨hlow, hquote, hslash⟩ := plain_of_byte hplain hc
        refine ⟨c :: body, .plain hlow hquote hslash hbody, ?_⟩
        rw [Utf8.encode_cons, hc]
        rfl
      | @escape part c' hescape =>
        obtain ⟨rfl, htail⟩ := Utf8.encodeChar_append_inj hdenoted
        obtain ⟨body, hbody, rfl⟩ := ih hmore htail
        refine ⟨part ++ body, ?_, Utf8.encode_append part body⟩
        rw [List.append_assoc]
        exact .escape hescape hbody

/-- **What is taken as a string is one**, and it denotes the text that is made of it. -/
theorem spelling_of_string {s rest : List UInt8} {text : String}
    (h : string s = .ok (text, rest)) :
    ∃ body, Spelling body text.toList ∧ s = Utf8.encode body ++ rest := by
  obtain ⟨source, denoted, hpieces, hs, hdecode⟩ := Pending.plain.run h
  obtain ⟨body, hbody, rfl⟩ := hpieces.spelling (Utf8.encode_of_decode? hdecode).symm
  refine ⟨body ++ ['"'], hbody, ?_⟩
  rw [Utf8.encode_append, List.append_assoc]
  exact hs

end ScriptedChat.Json
