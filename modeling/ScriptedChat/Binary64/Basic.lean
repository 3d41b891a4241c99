/-!
# Binary floating-point numbers of 64 bits

A `Binary64` is held by its bits: a sign, eleven bits of exponent, fifty-two of fraction. All arithmetic
here is exact arithmetic on natural numbers followed by one rounding to the nearest value, where a tie
goes to the even one.

* `ofRatio num den`: the value nearest to `num / den`.
* `ratio x`: the magnitude of a finite value, as a quotient.
* `mul`, `div`: exact product and quotient of magnitudes, rounded once.
* `ofDecimal mantissa exponent`: the value nearest to `mantissa * 10 ^ exponent`.
* `truncate`, `round`: the whole number towards zero, and the nearest one.
-/

namespace ScriptedChat

/-- A floating-point number, held by its bits. -/
structure Binary64 where
  /-- Sign, biased exponent and fraction, from the highest bit down. -/
  bits : UInt64
  deriving DecidableEq, Repr, Inhabited

namespace Binary64

/-! ## Parts -/

/-- Whether the sign bit is set. -/
def isNegative (x : Binary64) : Bool :=
  x.bits.toNat >>> 63 == 1

/-- The bits below the sign. -/
def magnitude (x : Binary64) : Nat :=
  x.bits.toNat % (1 <<< 63)

/-- The magnitude of the infinities; greater magnitudes are not numbers. -/
def infiniteMagnitude : Nat := 0x7FF <<< 52

def isInfinite (x : Binary64) : Bool := x.magnitude == infiniteMagnitude

def isNaN (x : Binary64) : Bool := infiniteMagnitude < x.magnitude

def isZero (x : Binary64) : Bool := x.magnitude == 0

/-- The value with the given magnitude and sign. -/
def ofMagnitude (negative : Bool) (magnitude : Nat) : Binary64 :=
  ⟨UInt64.ofNat (magnitude + if negative then 1 <<< 63 else 0)⟩

def zero : Binary64 := ofMagnitude false 0

def infinity : Binary64 := ofMagnitude false infiniteMagnitude

def nan : Binary64 := ofMagnitude false (infiniteMagnitude + (1 <<< 51))

/-- The value with the same magnitude and the given sign. -/
def withSign (negative : Bool) (x : Binary64) : Binary64 :=
  ofMagnitude negative x.magnitude

/-- The magnitude of a finite value is `significand x * 2 ^ exponent x`. -/
def significand (x : Binary64) : Nat :=
  if x.magnitude < 1 <<< 52 then x.magnitude else (1 <<< 52) + x.magnitude % (1 <<< 52)

/-- The power of two that goes with the significand. -/
def exponent (x : Binary64) : Int :=
  if x.magnitude < 1 <<< 52 then -1074 else (x.magnitude >>> 52 : Nat) - 1075

/-- The magnitude of a finite value, as numerator and denominator. -/
def ratio (x : Binary64) : Nat × Nat :=
  (x.significand <<< x.exponent.toNat, 1 <<< (-x.exponent).toNat)

/-! ## Rounding -/

/-- The whole number nearest to `num / den`, the even one of two that are equally near. -/
def roundHalfEven (num den : Nat) : Nat :=
  let quotient := num / den
  let excess := 2 * (num % den)
  if excess < den then quotient
  else if den < excess then quotient + 1
  else quotient + quotient % 2

/-- The greatest `e` with `2 ^ e ≤ num / den`, for positive numbers. -/
def log2Ratio (num den : Nat) : Int :=
  let e : Int := (num.log2 : Int) - den.log2
  if num <<< (-e).toNat < den <<< e.toNat then e - 1 else e

/-- The value nearest to `num / den`. The significand has 53 bits, fewer when the exponent is least. -/
def ofRatio (num den : Nat) : Binary64 :=
  if num = 0 then zero
  else
    let e := max (log2Ratio num den - 52) (-1074)
    let significand := roundHalfEven (num <<< (-e).toNat) (den <<< e.toNat)
    ofMagnitude false (min (((e + 1074).toNat <<< 52) + significand) infiniteMagnitude)

/-- The value nearest to a natural number. -/
def ofNat (n : Nat) : Binary64 := ofRatio n 1

/-- The product of the magnitudes of two finite values. -/
def mul (x y : Binary64) : Binary64 :=
  ofRatio (x.ratio.1 * y.ratio.1) (x.ratio.2 * y.ratio.2)

/-- The quotient of the magnitudes of two finite values, the second not zero. -/
def div (x y : Binary64) : Binary64 :=
  ofRatio (x.ratio.1 * y.ratio.2) (x.ratio.2 * y.ratio.1)

/-- The value nearest to `10 ^ n`. -/
def powerOfTen (n : Nat) : Binary64 := ofNat (Nat.pow 10 n)

/-! ## Decimals -/

/-- The value nearest to `mantissa * 10 ^ exponent`. A positive mantissa of `digits` digits puts the
value below `10 ^ (digits + exponent)`; far outside the range of the exponents it is infinite or zero. -/
def ofDecimal (mantissa digits : Nat) (exponent : Int) : Binary64 :=
  if mantissa = 0 then zero
  else if 400 < exponent then infinity
  else if digits + exponent < -400 then zero
  else ofRatio (mantissa * Nat.pow 10 exponent.toNat) (Nat.pow 10 (-exponent).toNat)

/-! ## Whole numbers -/

/-- The number with the fraction cut off. -/
def truncate (x : Binary64) : Int :=
  let whole : Int := (x.ratio.1 / x.ratio.2 : Nat)
  if x.isNegative then -whole else whole

/-- The nearest whole number; of two that are equally near, the one further from zero. -/
def round (x : Binary64) : Int :=
  let whole : Int := ((2 * x.ratio.1 + x.ratio.2) / (2 * x.ratio.2) : Nat)
  if x.isNegative then -whole else whole

end Binary64

end ScriptedChat
