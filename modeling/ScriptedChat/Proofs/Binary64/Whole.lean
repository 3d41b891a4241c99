import Mathlib.Algebra.Order.Group.Nat
import ScriptedChat.Binary64.Basic
import ScriptedChat.Text.Numeral

/-!
# Whole numbers as floating-point numbers

A natural number that needs more than 53 bits is rounded when it becomes a
floating-point number, but never below the greatest power of two in it.  So a
number that is too great for 64 bits with a sign is still too great after
rounding, and it is held at the greatest of them.

* `div_le_roundHalfEven`, `roundHalfEven_le` — rounding moves by less than one;
* `spacing`, `truncate_ofNat` — the numbers that are kept are the multiples of a
  power of two;
* `pow_log2_le_truncate` — no power of two is crossed downwards;
* `toInt64`, `toInt64_ofNat` — the whole part in 64 bits with a sign.
-/

namespace ScriptedChat.Binary64

/-! ## Rounding -/

theorem div_le_roundHalfEven (num den : Nat) : num / den ≤ roundHalfEven num den := by
  unfold roundHalfEven
  dsimp only
  split
  · exact Nat.le_refl _
  · split
    · exact Nat.le_succ _
    · exact Nat.le_add_right _ _

theorem roundHalfEven_le (num den : Nat) : roundHalfEven num den ≤ num / den + 1 := by
  unfold roundHalfEven
  dsimp only
  split
  · exact Nat.le_succ _
  · split
    · exact Nat.le_refl _
    · have hparity := Nat.mod_lt (num / den) (by decide : 0 < 2)
      omega

theorem log2Ratio_one {n : Nat} (h : n ≠ 0) : log2Ratio n 1 = n.log2 := by
  have hlog : Nat.log2 1 = 0 := by decide
  have hshift : ((n.log2 : Int) - (0 : Nat)).toNat = n.log2 := by omega
  have hback : (-((n.log2 : Int) - (0 : Nat))).toNat = 0 := by omega
  have hle : ¬ n <<< 0 < 1 <<< n.log2 := by
    rw [Nat.one_shiftLeft, Nat.not_lt]
    exact Nat.log2_self_le h
  simp only [log2Ratio, hlog, hshift, hback, if_neg hle]
  omega

/-! ## Parts of a positive number -/

variable {m e s n : Nat}

theorem toNat_bits_ofMagnitude (h : m < 2 ^ 63) : (ofMagnitude false m).bits.toNat = m :=
  UInt64.toNat_ofNat_of_lt' (Nat.lt_trans h (by decide))

theorem magnitude_ofMagnitude (h : m < 2 ^ 63) : (ofMagnitude false m).magnitude = m := by
  rw [magnitude, toNat_bits_ofMagnitude h, Nat.one_shiftLeft, Nat.mod_eq_of_lt h]

theorem isNegative_ofMagnitude (h : m < 2 ^ 63) : (ofMagnitude false m).isNegative = false := by
  rw [isNegative, toNat_bits_ofMagnitude h, Nat.shiftRight_eq_div_pow, Nat.div_eq_of_lt h]
  rfl

theorem exponent_ofMagnitude (hlow : 2 ^ 52 ≤ m) (hhigh : m < 2 ^ 63) :
    (ofMagnitude false m).exponent = (m / 2 ^ 52 : Nat) - 1075 := by
  rw [exponent, magnitude_ofMagnitude hhigh, Nat.one_shiftLeft, if_neg (Nat.not_lt.2 hlow),
    Nat.shiftRight_eq_div_pow]

theorem significand_ofMagnitude (hlow : 2 ^ 52 ≤ m) (hhigh : m < 2 ^ 63) :
    (ofMagnitude false m).significand = 2 ^ 52 + m % 2 ^ 52 := by
  rw [significand, magnitude_ofMagnitude hhigh, Nat.one_shiftLeft, if_neg (Nat.not_lt.2 hlow)]

/-- A number without a fraction is its own whole part. -/
theorem truncate_of_exponent {x : Binary64} (hsign : x.isNegative = false)
    (hexponent : x.exponent = e) : x.truncate = (x.significand * 2 ^ e : Nat) := by
  have hback : (-(e : Int)).toNat = 0 := by omega
  simp only [truncate, hsign, ratio, hexponent, hback, Int.toNat_natCast, Nat.shiftLeft_eq,
    Nat.pow_zero, Nat.mul_one, Nat.div_one, Bool.false_eq_true, if_false]

/-- The significand that rounding gives may be one too long; its first bit is then carried over to
the exponent, and the number is right again. -/
theorem truncate_ofMagnitude (he : e ≤ 970) (hlow : 2 ^ 52 ≤ s) (hhigh : s ≤ 2 ^ 53) :
    (ofMagnitude false ((e + 1074) * 2 ^ 52 + s)).truncate = (s * 2 ^ e : Nat) := by
  have hfits : (e + 1074) * 2 ^ 52 + s < 2 ^ 63 := by omega
  have hnormal : 2 ^ 52 ≤ (e + 1074) * 2 ^ 52 + s := by omega
  have hsign := isNegative_ofMagnitude hfits
  have hexponent := exponent_ofMagnitude hnormal hfits
  have hsignificand := significand_ofMagnitude hnormal hfits
  rcases Nat.lt_or_eq_of_le hhigh with hs | hs
  · have hcut : 2 ^ 52 + ((e + 1074) * 2 ^ 52 + s) % 2 ^ 52 = s := by omega
    have hunit : (((e + 1074) * 2 ^ 52 + s) / 2 ^ 52 : Nat) - (1075 : Int) = e := by omega
    rw [truncate_of_exponent hsign (hexponent.trans hunit), hsignificand, hcut]
  · have hcut : 2 ^ 52 + ((e + 1074) * 2 ^ 52 + s) % 2 ^ 52 = 2 ^ 52 := by omega
    have hunit : (((e + 1074) * 2 ^ 52 + s) / 2 ^ 52 : Nat) - (1075 : Int) = (e + 1 : Nat) := by
      omega
    have hdouble : 2 ^ 52 * 2 ^ (e + 1) = s * 2 ^ e := by
      rw [hs, Nat.pow_succ]
      omega
    rw [truncate_of_exponent hsign (hexponent.trans hunit), hsignificand, hcut, hdouble]

/-! ## Great natural numbers -/

/-- How far floating-point numbers are apart around a natural number of 53 bits or more. -/
def spacing (n : Nat) : Nat := 2 ^ (n.log2 - 52)

theorem spacing_pos (n : Nat) : 0 < spacing n :=
  Nat.two_pow_pos _

theorem pow_log2 (h : 52 ≤ n.log2) : 2 ^ n.log2 = 2 ^ 52 * spacing n := by
  rw [spacing, ← Nat.pow_add, Nat.add_sub_cancel' h]

theorem ne_zero_of_log2 (h : 52 ≤ n.log2) : n ≠ 0 := by
  rintro rfl
  exact absurd h (by decide)

theorem pow_le_div_spacing (h : 52 ≤ n.log2) : 2 ^ 52 ≤ n / spacing n := by
  rw [Nat.le_div_iff_mul_le (spacing_pos n), ← pow_log2 h]
  exact Nat.log2_self_le (ne_zero_of_log2 h)

theorem div_spacing_lt (h : 52 ≤ n.log2) : n / spacing n < 2 ^ 53 := by
  rw [Nat.div_lt_iff_lt_mul (spacing_pos n)]
  calc n
    _ < 2 ^ (n.log2 + 1) := Nat.lt_log2_self
    _ = 2 ^ 53 * spacing n := by rw [Nat.pow_succ, pow_log2 h]; omega

theorem ofNat_of_le (h : 52 ≤ n.log2) :
    ofNat n = ofMagnitude false
      (min ((n.log2 + 1022) * 2 ^ 52 + roundHalfEven n (spacing n)) infiniteMagnitude) := by
  have hne := ne_zero_of_log2 h
  have hexponent : max ((n.log2 : Int) - 52) (-1074) = ((n.log2 - 52 : Nat) : Int) := by omega
  have hbiased : (((n.log2 - 52 : Nat) : Int) + 1074).toNat = n.log2 + 1022 := by omega
  have hback : (-((n.log2 - 52 : Nat) : Int)).toNat = 0 := by omega
  simp only [ofNat, ofRatio, if_neg hne, log2Ratio_one hne, hexponent, hbiased, hback, spacing,
    Int.toNat_natCast, Nat.shiftLeft_eq, Nat.pow_zero, Nat.mul_one, Nat.one_mul]

/-- **A natural number of 53 bits or more as a floating-point number**: the nearest multiple of the
spacing around it. -/
theorem truncate_ofNat (hlow : 52 ≤ n.log2) (hhigh : n.log2 ≤ 1022) :
    (ofNat n).truncate = (roundHalfEven n (spacing n) * spacing n : Nat) := by
  have hleast := pow_le_div_spacing hlow
  have hgreatest := div_spacing_lt hlow
  have hdown := div_le_roundHalfEven n (spacing n)
  have hup := roundHalfEven_le n (spacing n)
  have hinfinite : infiniteMagnitude = 2047 * 2 ^ 52 := by decide
  have hexponent : n.log2 + 1022 = n.log2 - 52 + 1074 := by omega
  rw [ofNat_of_le hlow, Nat.min_eq_left (by omega), hexponent,
    truncate_ofMagnitude (by omega) (by omega) (by omega), spacing]

/-- Rounding crosses no power of two downwards. -/
theorem pow_log2_le_truncate (hlow : 52 ≤ n.log2) (hhigh : n.log2 ≤ 1022) :
    ((2 ^ n.log2 : Nat) : Int) ≤ (ofNat n).truncate := by
  rw [truncate_ofNat hlow hhigh, Int.ofNat_le]
  calc 2 ^ n.log2
    _ = 2 ^ 52 * spacing n := pow_log2 hlow
    _ ≤ n / spacing n * spacing n := Nat.mul_le_mul_right _ (pow_le_div_spacing hlow)
    _ ≤ roundHalfEven n (spacing n) * spacing n :=
      Nat.mul_le_mul_right _ (div_le_roundHalfEven n (spacing n))

/-! ## The whole part in 64 bits -/

/-- The whole part, held within 64 bits with a sign; what is no number has none. -/
def toInt64 (x : Binary64) : Int :=
  if x.isNaN then 0 else max Text.minInt64 (min x.truncate Text.maxInt64)

theorem isNaN_ofNat (h : 52 ≤ n.log2) : (ofNat n).isNaN = false := by
  have hle := Nat.min_le_right ((n.log2 + 1022) * 2 ^ 52 + roundHalfEven n (spacing n))
    infiniteMagnitude
  have hinfinite : infiniteMagnitude < 2 ^ 63 := by decide
  rw [ofNat_of_le h, isNaN, magnitude_ofMagnitude (Nat.lt_of_le_of_lt hle hinfinite)]
  exact decide_eq_false (Nat.not_lt.2 hle)

/-- **A number that is too great is held at the greatest number of 64 bits with a sign.** -/
theorem toInt64_ofNat (hgreat : Text.maxInt64 < n) (hfits : n ≤ Text.maxUInt64) :
    (ofNat n).toInt64 = Text.maxInt64 := by
  have hmax : Text.maxInt64 = 0x7FFFFFFFFFFFFFFF := rfl
  have hmaxU : Text.maxUInt64 = 0xFFFFFFFFFFFFFFFF := rfl
  have hne : n ≠ 0 := by omega
  have hlog : n.log2 = 63 :=
    (Nat.log2_eq_iff hne).2 ⟨by omega, by omega⟩
  have hwhole := pow_log2_le_truncate (n := n) (by omega) (by omega)
  rw [hlog] at hwhole
  rw [toInt64, isNaN_ofNat (by omega), if_neg (by decide), min_eq_right (by omega)]
  rfl

end ScriptedChat.Binary64
