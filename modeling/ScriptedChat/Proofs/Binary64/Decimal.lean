import ScriptedChat.Binary64.Decimal
import ScriptedChat.Binary64.Shortest
import ScriptedChat.Proofs.Json.Grammar
import ScriptedChat.Proofs.Text.Blank
import ScriptedChat.Proofs.Text.Numeral

/-!
# Decimals

Which texts denote a whole number, and which a floating-point number, told by a
grammar and not by a reader.  The readers accept what the grammar allows, with the
value that it gives, and nothing else.

* `SignedDigits`, `readInt?_eq_some_iff` — whole numbers with a sign;
* `ExponentText`, `MagnitudeText`, `DecimalText` — the parts of a decimal;
* `readDecimal?_eq_some_iff` — decimals;
* `isMark_of_decimalText`, `isMark_of_render` — the characters of decimals that
  are read, and of those that are written;
* `isBlank_of_isMark`, `bare_of_isMark` — none of them is a blank.
-/

namespace ScriptedChat.Binary64

open Json (Digits)
open Text (isDigit digitsValue readInt?)

/-! ## Whole numbers -/

/-- One or more digits, perhaps after a sign, and the number that they denote. -/
inductive SignedDigits : List Char → Int → Prop where
  | bare {digits : List Char} (digits_text : Digits digits) :
    SignedDigits digits (digitsValue digits)
  | plus {digits : List Char} (digits_text : Digits digits) :
    SignedDigits ('+' :: digits) (digitsValue digits)
  | minus {digits : List Char} (digits_text : Digits digits) :
    SignedDigits ('-' :: digits) (-(digitsValue digits : Int))

variable {text rest : List Char}

theorem readNat?_eq_some_iff {n : Nat} :
    Text.readNat? text = some n ↔ Digits text ∧ n = digitsValue text := by
  rw [Text.readNat?]
  constructor
  · intro h
    split at h
    · cases h
    · rename_i hdigits
      simp only [Bool.or_eq_true, not_or, List.isEmpty_iff, Bool.not_eq_true', Bool.not_eq_false,
        List.all_eq_true] at hdigits
      cases h
      exact ⟨⟨hdigits.1, hdigits.2⟩, rfl⟩
  · rintro ⟨hdigits, rfl⟩
    rw [if_neg]
    simp only [Bool.or_eq_true, not_or, List.isEmpty_iff, Bool.not_eq_true', Bool.not_eq_false,
      List.all_eq_true]
    exact ⟨hdigits.ne_nil, hdigits.digits⟩

/-- Digits do not begin with a sign, or with anything else that is no digit. -/
theorem digits_head {c : Char} (h : Digits text) (hc : isDigit c = false) : text ≠ c :: rest := by
  rintro rfl
  rw [h.digits c List.mem_cons_self] at hc
  exact absurd hc nofun

theorem readInt?_of_digits (h : Digits text) : readInt? text = some (digitsValue text : Int) := by
  have hread := readNat?_eq_some_iff.2 ⟨h, rfl⟩
  unfold readInt?
  split
  · exact absurd rfl (digits_head h (by decide))
  · exact absurd rfl (digits_head h (by decide))
  · rw [hread]
    rfl

theorem readInt?_minus (h : Digits text) :
    readInt? ('-' :: text) = some (-(digitsValue text : Int)) := by
  rw [readInt?, readNat?_eq_some_iff.2 ⟨h, rfl⟩]
  rfl

theorem readInt?_plus (h : Digits text) : readInt? ('+' :: text) = some (digitsValue text : Int) := by
  rw [readInt?, readNat?_eq_some_iff.2 ⟨h, rfl⟩]
  rfl

/-- **The whole numbers that are read.** -/
theorem readInt?_eq_some_iff {n : Int} : readInt? text = some n ↔ SignedDigits text n := by
  constructor
  · intro h
    unfold readInt? at h
    split at h
    all_goals
      simp only [Option.map_eq_some_iff, Option.bind_eq_bind, Option.bind_eq_some_iff,
        Option.pure_def, Option.some.injEq, readNat?_eq_some_iff] at h
    · obtain ⟨_, ⟨_, ⟨hdigits, rfl⟩, rfl⟩, rfl⟩ := h
      exact .minus hdigits
    · obtain ⟨_, ⟨_, ⟨hdigits, rfl⟩, rfl⟩, rfl⟩ := h
      exact .plus hdigits
    · obtain ⟨_, ⟨_, ⟨hdigits, rfl⟩, rfl⟩, rfl⟩ := h
      exact .bare hdigits
  · intro h
    cases h with
    | bare hdigits => exact readInt?_of_digits hdigits
    | plus hdigits => exact readInt?_plus hdigits
    | minus hdigits => exact readInt?_minus hdigits

/-- Whole numbers are written with a minus sign or without any. -/
theorem signedDigits_decimalInt (n : Int) : SignedDigits (Text.decimalInt n) n := by
  have hdigits (m : Nat) : Digits (Text.decimal m) :=
    ⟨Text.decimal_ne_nil m, Text.isDigit_of_mem_decimal m⟩
  cases n with
  | ofNat n =>
    have hbare := SignedDigits.bare (hdigits n)
    rwa [Text.digitsValue_decimal] at hbare
  | negSucc n =>
    have hminus := SignedDigits.minus (hdigits (n + 1))
    rwa [Text.digitsValue_decimal] at hminus

theorem ne_nil_of_signedDigits {n : Int} (h : SignedDigits text n) : text ≠ [] := by
  cases h with
  | bare hdigits => exact hdigits.ne_nil
  | plus => exact List.cons_ne_nil _ _
  | minus => exact List.cons_ne_nil _ _

/-! ## Decimals -/

/-- Nothing, or the letter of an exponent and a whole number, and the exponent that it denotes. -/
inductive ExponentText : List Char → Int → Prop where
  | none : ExponentText [] 0
  | marked {mark : Char} {digits : List Char} {n : Int} (mark_eq : mark = 'e' ∨ mark = 'E')
    (number : SignedDigits digits n) : ExponentText (mark :: digits) n

/-- A decimal without a sign, and the value that it denotes. -/
inductive MagnitudeText : List Char → Binary64 → Prop where
  | infinity {text : List Char} (name : text.map Char.toLower ∈ infinityNames) :
    MagnitudeText text infinity
  | nan {text : List Char} (name : text.map Char.toLower = nanName) : MagnitudeText text nan
  | whole {digits exponent : List Char} {n : Int} (digits_text : Digits digits)
    (exponent_text : ExponentText exponent n) :
    MagnitudeText (digits ++ exponent) (ofDecimal (digitsValue digits) digits.length n)
  /-- the point may stand before all digits or after all of them -/
  | pointed {whole fraction exponent : List Char} {n : Int} (digits_text : Digits (whole ++ fraction))
    (exponent_text : ExponentText exponent n) :
    MagnitudeText (whole ++ '.' :: (fraction ++ exponent))
      (ofDecimal (digitsValue (whole ++ fraction)) (whole ++ fraction).length
        (n - (fraction.length : Int)))

/-- A decimal, perhaps after a sign, and the value that it denotes. -/
inductive DecimalText : List Char → Binary64 → Prop where
  | bare {text : List Char} {x : Binary64} (magnitude : MagnitudeText text x) : DecimalText text x
  | plus {text : List Char} {x : Binary64} (magnitude : MagnitudeText text x) :
    DecimalText ('+' :: text) x
  | minus {text : List Char} {x : Binary64} (magnitude : MagnitudeText text x) :
    DecimalText ('-' :: text) (withSign true x)

/-- Whole numbers are decimals. -/
theorem exists_decimalText {n : Int} (h : SignedDigits text n) : ∃ x, DecimalText text x := by
  have hmagnitude {digits : List Char} (hdigits : Digits digits) : ∃ x, MagnitudeText digits x := by
    have hwhole := MagnitudeText.whole hdigits .none
    rw [List.append_nil] at hwhole
    exact ⟨_, hwhole⟩
  cases h with
  | bare hdigits => exact (hmagnitude hdigits).imp fun _ => .bare
  | plus hdigits => exact (hmagnitude hdigits).imp fun _ => .plus
  | minus hdigits =>
    obtain ⟨x, hx⟩ := hmagnitude hdigits
    exact ⟨_, .minus hx⟩

/-! ### Names -/

/-- The names of infinity and of what is no number begin with letters. -/
theorem name_head {c : Char} (h : infinityNames.contains ((c :: rest).map Char.toLower) = true ∨
    (c :: rest).map Char.toLower = nanName) : c.toLower = 'i' ∨ c.toLower = 'n' := by
  rcases h with h | h
  · simp only [infinityNames, List.contains_cons, List.contains_nil, Bool.or_false, Bool.or_eq_true,
      beq_iff_eq, List.map_cons] at h
    rcases h with h | h
    · exact .inl (List.cons.inj h).1
    · exact .inl (List.cons.inj h).1
  · exact .inr (List.cons.inj h).1

theorem toLower_of_not_capital {c : Char} (h : ¬ (65 ≤ c.toNat ∧ c.toNat ≤ 90)) :
    c.toLower = c := by
  refine dif_neg ?_
  rintro ⟨hlow, hhigh⟩
  exact h ⟨UInt32.le_iff_toNat_le.1 hlow, UInt32.le_iff_toNat_le.1 hhigh⟩

theorem toLower_of_isDigit {c : Char} (h : isDigit c = true) : c.toLower = c := by
  simp only [isDigit, Bool.and_eq_true, decide_eq_true_eq] at h
  exact toLower_of_not_capital (by omega)

/-- A text that begins with a digit or a point is no name. -/
theorem no_name {c : Char} (h : isDigit c = true ∨ c = '.') :
    infinityNames.contains ((c :: rest).map Char.toLower) = false ∧
      (c :: rest).map Char.toLower ≠ nanName := by
  have hletter : ¬ (c.toLower = 'i' ∨ c.toLower = 'n') := by
    rcases h with h | rfl
    · rw [toLower_of_isDigit h]
      rintro (rfl | rfl)
      · exact absurd h (by decide)
      · exact absurd h (by decide)
    · decide
  refine ⟨?_, fun hnan => hletter (name_head (.inr hnan))⟩
  exact Bool.eq_false_iff.2 fun hinfinity => hletter (name_head (.inl hinfinity))

/-! ### The parts of a decimal -/

theorem readExponent?_eq_some_iff {n : Int} : readExponent? text = some n ↔ ExponentText text n := by
  constructor
  · intro h
    unfold readExponent? at h
    split at h
    · cases h
      exact .none
    · split at h
      · rename_i hmark
        exact .marked (by simpa using hmark) (readInt?_eq_some_iff.1 h)
      · cases h
  · intro h
    cases h with
    | none => rfl
    | marked hmark hnumber =>
      rw [readExponent?, if_pos (by simpa using hmark), readInt?_eq_some_iff.2 hnumber]

/-- An exponent begins with no digit and with no point. -/
theorem exponentText_head {c : Char} {n : Int} (h : ExponentText (c :: rest) n) :
    isDigit c = false ∧ c ≠ '.' := by
  cases h with
  | marked hmark =>
    rcases hmark with rfl | rfl
    · decide
    · decide

theorem ofDigits?_eq_some_iff {whole fraction : List Char} {x : Binary64} :
    ofDigits? whole fraction rest = some x ↔ whole ++ fraction ≠ [] ∧ ∃ n, ExponentText rest n ∧
      x = ofDecimal (digitsValue (whole ++ fraction)) (whole ++ fraction).length
        (n - (fraction.length : Int)) := by
  simp only [ofDigits?, List.isEmpty_iff, ne_eq]
  by_cases hnil : whole ++ fraction = []
  · simp [hnil]
  · simp only [hnil, if_false, not_false_eq_true, true_and, Option.bind_eq_bind, Option.pure_def,
      Option.bind_eq_some_iff, readExponent?_eq_some_iff, Option.some.injEq]
    exact exists_congr fun n => and_congr_right fun _ => eq_comm

/-- Digits end where a character that is none follows. -/
theorem span_digits {digits : List Char} (h : ∀ c ∈ digits, isDigit c = true)
    (hrest : ∀ c ∈ rest.head?, isDigit c = false) :
    (digits ++ rest).takeWhile isDigit = digits ∧ (digits ++ rest).dropWhile isDigit = rest := by
  rw [List.takeWhile_append_of_pos h, List.dropWhile_append_of_pos h]
  cases rest with
  | nil => simp
  | cons c rest =>
    have hc : ¬ isDigit c = true := Bool.eq_false_iff.1 (hrest c rfl)
    rw [List.takeWhile_cons_of_neg hc, List.dropWhile_cons_of_neg hc, List.append_nil]
    exact ⟨rfl, rfl⟩

theorem readUnsigned?_of_no_name (h : infinityNames.contains (text.map Char.toLower) = false)
    (hnan : text.map Char.toLower ≠ nanName) :
    readUnsigned? text =
      match text.dropWhile isDigit with
      | '.' :: rest =>
        ofDigits? (text.takeWhile isDigit) (rest.takeWhile isDigit) (rest.dropWhile isDigit)
      | rest => ofDigits? (text.takeWhile isDigit) [] rest := by
  have hinfinity : ¬ infinityNames.contains (text.map Char.toLower) = true := Bool.eq_false_iff.1 h
  exact (if_neg hinfinity).trans (if_neg hnan)

/-! ### Whole decimals -/

theorem magnitudeText_of_read {x : Binary64} (h : readUnsigned? text = some x) :
    MagnitudeText text x := by
  by_cases hinfinity : infinityNames.contains (text.map Char.toLower) = true
  · simp only [readUnsigned?, hinfinity, if_true] at h
    cases h
    exact .infinity (List.contains_iff_mem.1 hinfinity)
  by_cases hnan : text.map Char.toLower = nanName
  · simp only [readUnsigned?, hinfinity, if_pos hnan] at h
    cases h
    exact .nan hnan
  rw [readUnsigned?_of_no_name (Bool.eq_false_iff.2 hinfinity) hnan] at h
  have hdigits (s : List Char) : ∀ c ∈ s.takeWhile isDigit, isDigit c = true :=
    List.all_eq_true.1 List.all_takeWhile
  split at h
  · rename_i after hafter
    obtain ⟨hne, n, hexponent, rfl⟩ := ofDigits?_eq_some_iff.1 h
    have hboth : Digits (text.takeWhile isDigit ++ after.takeWhile isDigit) :=
      ⟨hne, List.forall_mem_append.2 ⟨hdigits text, hdigits after⟩⟩
    have hpointed := MagnitudeText.pointed hboth hexponent
    rwa [List.takeWhile_append_dropWhile, ← hafter, List.takeWhile_append_dropWhile] at hpointed
  · obtain ⟨hne, n, hexponent, rfl⟩ := ofDigits?_eq_some_iff.1 h
    rw [List.append_nil] at hne
    have hwhole := MagnitudeText.whole ⟨hne, hdigits text⟩ hexponent
    rw [List.takeWhile_append_dropWhile] at hwhole
    simpa using hwhole

theorem readUnsigned?_of_whole {digits exponent : List Char} {n : Int} (h : Digits digits)
    (hexponent : ExponentText exponent n) :
    readUnsigned? (digits ++ exponent) = some (ofDecimal (digitsValue digits) digits.length n) := by
  obtain ⟨c, more, rfl⟩ := List.exists_cons_of_ne_nil h.ne_nil
  obtain ⟨hinfinity, hnan⟩ := @no_name (more ++ exponent) c (.inl (h.digits c List.mem_cons_self))
  obtain ⟨htake, hdrop⟩ := @span_digits exponent (c :: more) h.digits fun d hd => by
    obtain ⟨rest, rfl⟩ := List.head?_eq_some_iff.1 hd
    exact (exponentText_head hexponent).1
  rw [List.cons_append] at htake hdrop ⊢
  rw [readUnsigned?_of_no_name hinfinity hnan, htake, hdrop]
  split
  · exact absurd rfl (exponentText_head hexponent).2
  · rw [ofDigits?_eq_some_iff]
    exact ⟨by simp, n, hexponent, by simp⟩

theorem readUnsigned?_of_pointed {whole fraction exponent : List Char} {n : Int}
    (h : Digits (whole ++ fraction)) (hexponent : ExponentText exponent n) :
    readUnsigned? (whole ++ '.' :: (fraction ++ exponent)) =
      some (ofDecimal (digitsValue (whole ++ fraction)) (whole ++ fraction).length
        (n - (fraction.length : Int))) := by
  have hwhole : ∀ c ∈ whole, isDigit c = true :=
    fun c hc => h.digits c (List.mem_append_left _ hc)
  have hfraction : ∀ c ∈ fraction, isDigit c = true :=
    fun c hc => h.digits c (List.mem_append_right _ hc)
  obtain ⟨htake, hdrop⟩ := @span_digits ('.' :: (fraction ++ exponent)) whole hwhole (by
    intro c hc
    cases hc
    decide)
  obtain ⟨htake', hdrop'⟩ := @span_digits exponent fraction hfraction fun d hd => by
    obtain ⟨rest, rfl⟩ := List.head?_eq_some_iff.1 hd
    exact (exponentText_head hexponent).1
  have hname : infinityNames.contains
        ((whole ++ '.' :: (fraction ++ exponent)).map Char.toLower) = false ∧
      (whole ++ '.' :: (fraction ++ exponent)).map Char.toLower ≠ nanName := by
    cases whole with
    | nil => exact no_name (.inr rfl)
    | cons c whole => exact no_name (.inl (hwhole c List.mem_cons_self))
  rw [readUnsigned?_of_no_name hname.1 hname.2, htake, hdrop]
  show ofDigits? whole _ _ = _
  rw [htake', hdrop', ofDigits?_eq_some_iff]
  exact ⟨h.ne_nil, n, hexponent, rfl⟩

theorem readUnsigned?_eq_some_iff {x : Binary64} :
    readUnsigned? text = some x ↔ MagnitudeText text x := by
  refine ⟨magnitudeText_of_read, fun h => ?_⟩
  cases h with
  | infinity hname => rw [readUnsigned?, if_pos (List.contains_iff_mem.2 hname)]
  | nan hname =>
    rw [readUnsigned?, hname, if_neg (by decide), if_pos rfl]
  | whole hdigits hexponent => exact readUnsigned?_of_whole hdigits hexponent
  | pointed hdigits hexponent => exact readUnsigned?_of_pointed hdigits hexponent

/-- A decimal without a sign does not begin with one. -/
theorem magnitudeText_head {c : Char} {x : Binary64} (h : MagnitudeText (c :: rest) x) :
    c ≠ '+' ∧ c ≠ '-' := by
  have hname (hlower : c.toLower = 'i' ∨ c.toLower = 'n') : c ≠ '+' ∧ c ≠ '-' := by
    constructor
    · rintro rfl
      exact absurd hlower (by decide)
    · rintro rfl
      exact absurd hlower (by decide)
  have hdigit (hc : isDigit c = true) : c ≠ '+' ∧ c ≠ '-' := by
    constructor
    · rintro rfl
      exact absurd hc (by decide)
    · rintro rfl
      exact absurd hc (by decide)
  generalize htext : c :: rest = text at h
  cases h with
  | infinity hinfinity =>
    subst htext
    exact hname (name_head (.inl (List.contains_iff_mem.2 hinfinity)))
  | nan hnan =>
    subst htext
    exact hname (name_head (.inr hnan))
  | whole hdigits hexponent =>
    obtain ⟨d, more, rfl⟩ := List.exists_cons_of_ne_nil hdigits.ne_nil
    obtain rfl := (List.cons.inj htext).1
    exact hdigit (hdigits.digits _ List.mem_cons_self)
  | @pointed whole _ _ _ hdigits hexponent =>
    cases whole with
    | nil =>
      obtain rfl := (List.cons.inj htext).1
      decide
    | cons d whole =>
      obtain rfl := (List.cons.inj htext).1
      exact hdigit (hdigits.digits _ List.mem_cons_self)

/-- **The decimals that are read.** -/
theorem readDecimal?_eq_some_iff {x : Binary64} : readDecimal? text = some x ↔ DecimalText text x := by
  constructor
  · intro h
    unfold readDecimal? at h
    split at h
    · obtain ⟨y, hread, rfl⟩ := Option.map_eq_some_iff.1 h
      exact .minus (readUnsigned?_eq_some_iff.1 hread)
    · exact .plus (readUnsigned?_eq_some_iff.1 h)
    · exact .bare (readUnsigned?_eq_some_iff.1 h)
  · intro h
    cases h with
    | bare hmagnitude =>
      unfold readDecimal?
      split
      · exact absurd rfl (magnitudeText_head hmagnitude).2
      · exact absurd rfl (magnitudeText_head hmagnitude).1
      · exact readUnsigned?_eq_some_iff.2 hmagnitude
    | plus hmagnitude => exact readUnsigned?_eq_some_iff.2 hmagnitude
    | minus hmagnitude => rw [readDecimal?, readUnsigned?_eq_some_iff.2 hmagnitude, Option.map_some]

/-! ## Characters of decimals -/

/-- The characters besides digits that can stand in a decimal: signs, the point, the mark of an
exponent, and the letters of the names, in lower case. -/
def marks : List Char := "+-.aefinty".toList

/-- A character that can stand in a decimal. -/
def IsMark (c : Char) : Prop :=
  isDigit c = true ∨ c.toLower ∈ marks

theorem isMark_of_digits (h : Digits text) : ∀ c ∈ text, IsMark c :=
  fun c hc => .inl (h.digits c hc)

theorem isMark_of_signedDigits {n : Int} (h : SignedDigits text n) : ∀ c ∈ text, IsMark c := by
  cases h with
  | bare hdigits => exact isMark_of_digits hdigits
  | plus hdigits => exact List.forall_mem_cons.2 ⟨.inr (by decide), isMark_of_digits hdigits⟩
  | minus hdigits => exact List.forall_mem_cons.2 ⟨.inr (by decide), isMark_of_digits hdigits⟩

theorem isMark_of_exponentText {n : Int} (h : ExponentText text n) : ∀ c ∈ text, IsMark c := by
  cases h with
  | none => exact nofun
  | marked hmark hnumber =>
    refine List.forall_mem_cons.2 ⟨.inr ?_, isMark_of_signedDigits hnumber⟩
    rcases hmark with rfl | rfl
    · decide
    · decide

theorem isMark_of_letters (h : (text.map Char.toLower).all marks.contains = true) :
    ∀ c ∈ text, IsMark c := by
  intro c hc
  exact .inr (List.contains_iff_mem.1 (List.all_eq_true.1 h _ (List.mem_map_of_mem hc)))

theorem isMark_of_magnitudeText {x : Binary64} (h : MagnitudeText text x) :
    ∀ c ∈ text, IsMark c := by
  cases h with
  | infinity hname =>
    have hletters : infinityNames.all (fun name => name.all marks.contains) = true := by decide
    exact isMark_of_letters (List.all_eq_true.1 hletters _ hname)
  | nan hname => exact isMark_of_letters (by rw [hname]; decide)
  | whole hdigits hexponent =>
    exact List.forall_mem_append.2 ⟨isMark_of_digits hdigits, isMark_of_exponentText hexponent⟩
  | pointed hdigits hexponent =>
    obtain ⟨hwhole, hfraction⟩ := List.forall_mem_append.1 (isMark_of_digits hdigits)
    exact List.forall_mem_append.2 ⟨hwhole, List.forall_mem_cons.2 ⟨.inr (by decide),
      List.forall_mem_append.2 ⟨hfraction, isMark_of_exponentText hexponent⟩⟩⟩

/-- **No other character stands in a decimal.** -/
theorem isMark_of_decimalText {x : Binary64} (h : DecimalText text x) : ∀ c ∈ text, IsMark c := by
  cases h with
  | bare hmagnitude => exact isMark_of_magnitudeText hmagnitude
  | plus hmagnitude =>
    exact List.forall_mem_cons.2 ⟨.inr (by decide), isMark_of_magnitudeText hmagnitude⟩
  | minus hmagnitude =>
    exact List.forall_mem_cons.2 ⟨.inr (by decide), isMark_of_magnitudeText hmagnitude⟩

/-! ## Decimals that are written -/

theorem isMark_of_decimal (n : Nat) : ∀ c ∈ Text.decimal n, IsMark c :=
  fun c hc => .inl (Text.isDigit_of_mem_decimal n c hc)

theorem isMark_of_zeros (n : Nat) : ∀ c ∈ zeros n, IsMark c := by
  intro c hc
  rw [List.eq_of_mem_replicate hc]
  exact .inl (by decide)

theorem isMark_of_plainText {digits : List Char} (h : ∀ c ∈ digits, IsMark c)
    (wholeFraction : Bool) (point : Int) :
    ∀ c ∈ plainText wholeFraction digits point, IsMark c := by
  unfold plainText
  dsimp only
  split
  · exact List.forall_mem_cons.2 ⟨.inl (by decide), List.forall_mem_cons.2 ⟨.inr (by decide),
      List.forall_mem_append.2 ⟨isMark_of_zeros _, h⟩⟩⟩
  · split
    · refine List.forall_mem_append.2 ⟨List.forall_mem_append.2 ⟨h, isMark_of_zeros _⟩, ?_⟩
      split
      · exact List.forall_mem_cons.2 ⟨.inr (by decide),
          List.forall_mem_singleton.2 (.inl (by decide))⟩
      · exact nofun
    · exact List.forall_mem_append.2 ⟨fun c hc => h c (List.mem_of_mem_take hc),
        List.forall_mem_cons.2 ⟨.inr (by decide), fun c hc => h c (List.mem_of_mem_drop hc)⟩⟩

theorem isMark_of_exponent {digits : List Char} (h : ∀ c ∈ digits, IsMark c) (point : Int) :
    ∀ c ∈ exponentText digits point, IsMark c := by
  unfold exponentText
  dsimp only
  refine List.forall_mem_append.2 ⟨List.forall_mem_append.2
    ⟨fun c hc => h c (List.mem_of_mem_take hc), ?_⟩, List.forall_mem_cons.2 ⟨.inr (by decide),
      List.forall_mem_cons.2 ⟨?_, isMark_of_decimal _⟩⟩⟩
  · split
    · exact nofun
    · exact List.forall_mem_cons.2 ⟨.inr (by decide), fun c hc => h c (List.mem_of_mem_drop hc)⟩
  · split
    · exact .inr (by decide)
    · exact .inr (by decide)

theorem write_cases (layout : Layout) (digits : List Char) (point : Int) :
    layout.write digits point = plainText layout.wholeFraction digits point ∨
      layout.write digits point = exponentText digits point := by
  rw [Layout.write]
  exact ite_eq_or_eq _ _ _

theorem isMark_of_write (layout : Layout) {digits : List Char} (h : ∀ c ∈ digits, IsMark c)
    (point : Int) : ∀ c ∈ layout.write digits point, IsMark c := by
  rcases write_cases layout digits point with hwrite | hwrite
  · rw [hwrite]
    exact isMark_of_plainText h _ _
  · rw [hwrite]
    exact isMark_of_exponent h _

theorem isMark_of_shortest (tieUp : Bool) (x : Binary64) :
    ∀ c ∈ (shortest tieUp x).1, IsMark c := by
  unfold shortest
  dsimp only
  split
  · rename_i n _ _
    intro c hc
    have hdecimal : c ∈ Text.decimal n := by
      simpa using (List.dropWhile_sublist _).subset (List.mem_reverse.1 hc)
    exact isMark_of_decimal n c hdecimal
  · exact List.forall_mem_singleton.2 (.inl (by decide))

/-- **What is written has the characters of decimals.** -/
theorem isMark_of_render (layout : Layout) (x : Binary64) : ∀ c ∈ render layout x, IsMark c := by
  have hsign : ∀ c ∈ if x.isNegative then ['-'] else [], IsMark c := by
    split
    · exact List.forall_mem_singleton.2 (.inr (by decide))
    · exact nofun
  unfold render
  dsimp only
  split
  · exact isMark_of_letters (by decide)
  · split
    · exact List.forall_mem_append.2 ⟨hsign, isMark_of_letters (by decide)⟩
    · split
      · exact List.forall_mem_append.2 ⟨hsign,
          isMark_of_write layout (List.forall_mem_singleton.2 (.inl (by decide))) _⟩
      · exact List.forall_mem_append.2 ⟨hsign, isMark_of_write layout (isMark_of_shortest _ x) _⟩

theorem plainText_ne_nil (wholeFraction : Bool) (digits : List Char) (point : Int) :
    plainText wholeFraction digits point ≠ [] := by
  unfold plainText
  dsimp only
  split
  · exact List.cons_ne_nil _ _
  · split
    · -- without digits there are zeros up to the point
      intro hnil
      have hlength := congrArg List.length hnil
      simp only [List.length_append, zeros, List.length_replicate, List.length_nil] at hlength
      omega
    · exact List.append_ne_nil_of_right_ne_nil _ (List.cons_ne_nil _ _)

theorem write_ne_nil (layout : Layout) (digits : List Char) (point : Int) :
    layout.write digits point ≠ [] := by
  rcases write_cases layout digits point with hwrite | hwrite
  · rw [hwrite]
    exact plainText_ne_nil _ _ _
  · rw [hwrite]
    exact List.append_ne_nil_of_right_ne_nil _ (List.cons_ne_nil _ _)

theorem render_ne_nil (layout : Layout) (x : Binary64) : render layout x ≠ [] := by
  unfold render
  dsimp only
  split
  · exact List.cons_ne_nil _ _
  · split
    · exact List.append_ne_nil_of_right_ne_nil _ (List.cons_ne_nil _ _)
    · split
      · exact List.append_ne_nil_of_right_ne_nil _ (write_ne_nil _ _ _)
      · exact List.append_ne_nil_of_right_ne_nil _ (write_ne_nil _ _ _)

theorem isBlank_of_range {c : Char} (hlow : 33 ≤ c.toNat) (hhigh : c.toNat < 127) :
    Text.isBlank c = false := by
  simp only [Text.isBlank, Bool.or_eq_false_iff, Bool.and_eq_false_iff, decide_eq_false_iff_not,
    beq_eq_false_iff_ne, ne_eq]
  omega

/-- **Decimals have no blanks.** -/
theorem isBlank_of_isMark {c : Char} (h : IsMark c) : Text.isBlank c = false := by
  rcases h with h | h
  · simp only [isDigit, Bool.and_eq_true, decide_eq_true_eq] at h
    exact isBlank_of_range (by omega) (by omega)
  · have hmarks : marks.all (fun m => ! Text.isBlank m) = true := by decide
    by_cases hcapital : 65 ≤ c.toNat ∧ c.toNat ≤ 90
    · exact isBlank_of_range (by omega) (by omega)
    · rw [toLower_of_not_capital hcapital] at h
      simpa using List.all_eq_true.1 hmarks c h

/-- Text of such characters has no blank at its ends. -/
theorem bare_of_isMark (h : ∀ c ∈ text, IsMark c) : Text.Bare text :=
  ⟨fun c hc => isBlank_of_isMark (h c (List.mem_of_mem_head? hc)),
    fun c hc => isBlank_of_isMark (h c (List.mem_of_mem_getLast? hc))⟩

end ScriptedChat.Binary64
