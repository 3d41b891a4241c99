import ScriptedChat.Binary64.Basic
import ScriptedChat.Text.Numeral

/-!
# Shortest decimals

The text of a `Binary64` has as few digits as tell it from every other value, and of the decimals with
so many digits it shows the nearest.

* `decimalPoint x`: the least `p` with `x < 10 ^ p`.
* `shortest`: the fewest digits that read back as `x`, searched on one grid of decimals after the other.
* `Layout`: how the digits are set out.
* `render`: the text of a value.
-/

namespace ScriptedChat.Binary64

/-- How the digits of a value are set out. -/
structure Layout where
  /-- Between these positions of the decimal point, both excluded, the number is written positionally;
  outside them with an exponent. -/
  plain : Option (Int × Int)
  /-- Whether a whole number is written with a fraction of zero. -/
  wholeFraction : Bool
  /-- Whether the greater of two equally near decimals is taken, or the one with the even last digit. -/
  tieUp : Bool

/-- The least `p` with `num / den < 10 ^ p`, for positive numbers. -/
def decimalPoint (num den : Nat) : Int :=
  if den ≤ num then (Text.decimal (num / den)).length
  else 1 - ((Text.decimal ((den - 1) / num)).length : Int)

/-- The decimal `n * 10 ^ grid`, as numerator and denominator. -/
def gridPoint (n : Nat) (grid : Int) : Nat × Nat :=
  (n * Nat.pow 10 grid.toNat, Nat.pow 10 (-grid).toNat)

/-- Whether the decimal `n * 10 ^ grid` reads as the positive value `x`. -/
def readsAs (x : Binary64) (n : Nat) (grid : Int) : Bool :=
  (ofRatio (gridPoint n grid).1 (gridPoint n grid).2).magnitude == x.magnitude

/-- The point of the grid `10 ^ grid` that reads as `x`, if one of the two neighbours of `x` does: the
nearer one if both do. -/
def onGrid (tieUp : Bool) (x : Binary64) (grid : Int) : Option Nat :=
  let (num, den) := x.ratio
  let below := (num * Nat.pow 10 (-grid).toNat) / (den * Nat.pow 10 grid.toNat)
  match readsAs x below grid, readsAs x (below + 1) grid with
  | false, false => none
  | true, false => some below
  | false, true => some (below + 1)
  | true, true =>
    let twice := 2 * num * Nat.pow 10 (-grid).toNat
    let middle := (2 * below + 1) * (den * Nat.pow 10 grid.toNat)
    if twice < middle then some below
    else if middle < twice then some (below + 1)
    else if tieUp || below % 2 == 1 then some (below + 1)
    else some below

/-- The digits without zeros at their end. -/
def dropZeros (digits : List Char) : List Char :=
  (digits.reverse.dropWhile (· == '0')).reverse

/-- The digits and the position of the decimal point of a positive finite value: `0.d₁d₂… * 10 ^ p`.
Seventeen digits always suffice. -/
def shortest (tieUp : Bool) (x : Binary64) : List Char × Int :=
  let point := decimalPoint x.ratio.1 x.ratio.2
  let found := (List.range 17).findSome? fun n =>
    (onGrid tieUp x (point - (n + 1 : Nat))).map fun c => (c, point - (n + 1 : Nat))
  match found with
  | some (n, grid) =>
    let digits := Text.decimal n
    (dropZeros digits, grid + digits.length)
  | none => (['0'], 1)

/-- Zeros in a row. -/
def zeros (n : Nat) : List Char := List.replicate n '0'

/-- Digits with the decimal point at position `point`, written positionally. -/
def plainText (wholeFraction : Bool) (digits : List Char) (point : Int) : List Char :=
  if point ≤ 0 then '0' :: '.' :: (zeros (-point).toNat ++ digits)
  else
    let n := point.toNat
    if digits.length ≤ n then
      digits ++ zeros (n - digits.length) ++ (if wholeFraction then ['.', '0'] else [])
    else digits.take n ++ '.' :: digits.drop n

/-- Digits with the decimal point at position `point`, written with an exponent. -/
def exponentText (digits : List Char) (point : Int) : List Char :=
  let fraction := digits.drop 1
  let exponent := point - 1
  digits.take 1 ++ (if fraction.isEmpty then [] else '.' :: fraction)
    ++ 'e' :: (if exponent < 0 then '-' else '+') :: Text.decimal exponent.natAbs

/-- Digits set out as the layout says. -/
def Layout.write (layout : Layout) (digits : List Char) (point : Int) : List Char :=
  let positional := match layout.plain with
    | none => true
    | some (low, high) => low < point && point < high
  if positional then plainText layout.wholeFraction digits point else exponentText digits point

/-- The text of a value. -/
def render (layout : Layout) (x : Binary64) : List Char :=
  if x.isNaN then ['N', 'a', 'N']
  else
    let sign := if x.isNegative then ['-'] else []
    if x.isInfinite then sign ++ ['i', 'n', 'f']
    else if x.isZero then sign ++ layout.write ['0'] 1
    else
      let (digits, point) := shortest layout.tieUp x
      sign ++ layout.write digits point

end ScriptedChat.Binary64
