import Reckoner.Double.Basic
/-!
# Decimal numerals and the numbers they name

A decimal is a coefficient times a power of ten. `Decimal.round` names the binary64 number nearest to
it; far out of range it answers without computing the power.
-/

namespace Reckoner

/-- The non-negative number `coefficient * 10 ^ exponent`. -/
structure Decimal where
  coefficient : Nat
  exponent : Int
  deriving DecidableEq

namespace Decimal

/-- The nearest number with the given sign. A coefficient other than zero is at least one and below
`2 ^ (log2 + 1)`, so the first two exits agree with rounding the exact value. -/
def round (negative : Bool) (d : Decimal) : Double :=
  if d.coefficient = 0 then .zero negative
  else if 310 ≤ d.exponent then .infinite negative
  else if d.exponent < -(d.coefficient.log2 + 331 : Nat) then .zero negative
  else match d.exponent with
    | .ofNat e => .ofRatio negative (d.coefficient * Nat.pow 10 e) 1
    | .negSucc e => .ofRatio negative d.coefficient (Nat.pow 10 (e + 1))

/-- How many decimal digits a number has; zero has none. -/
def digitCount (n : Nat) : Nat := if n = 0 then 0 else (Nat.toDigits 10 n).length

/-- The exponent of the first significant digit of a positive fraction. -/
def leadingExponent (num den : Nat) : Int :=
  if den ≤ num then (digitCount (num / den) : Int) - 1 else -(digitCount ((den - 1) / num) : Int)

/-- Numerator and denominator of `num / den / 10 ^ e`. -/
def scaleDown (num den : Nat) : Int → Nat × Nat
  | .ofNat e => (num, den * Nat.pow 10 e)
  | .negSucc e => (num * Nat.pow 10 (e + 1), den)

/-! ## Layout -/

/-- How digits are laid out: up to which exponent of the first digit they are written positionally,
and whether a whole number gets a point and a zero. -/
structure Layout where
  scientificFrom : Int
  wholePoint : Bool

/-- The digits of a decimal without trailing zeros, and the exponent of the first one. -/
def significant (d : Decimal) : List Char × Int :=
  let digits := Nat.toDigits 10 d.coefficient
  ((digits.reverse.dropWhile (· = '0')).reverse, d.exponent + digits.length - 1)

/-- Digits with the point placed so that the first one has the exponent `e`. -/
def positional (wholePoint : Bool) (digits : List Char) (e : Int) : List Char :=
  if e < 0 then '0' :: '.' :: (List.replicate (-e - 1).toNat '0' ++ digits)
  else
    let whole := (e + 1).toNat
    if digits.length ≤ whole then
      digits ++ List.replicate (whole - digits.length) '0' ++ if wholePoint then ['.', '0'] else []
    else digits.take whole ++ '.' :: digits.drop whole

/-- One digit before the point, and an exponent with its sign and at least two digits. -/
def scientific (digits : List Char) (e : Int) : List Char :=
  let exponent := Nat.toDigits 10 e.natAbs
  digits.take 1 ++ (if digits.length ≤ 1 then [] else '.' :: digits.drop 1) ++
    'e' :: (if e < 0 then '-' else '+') :: (if exponent.length < 2 then '0' :: exponent else exponent)

/-- The text of a decimal; from `1e-4` on downwards it is scientific in every layout. -/
def layOut (layout : Layout) (d : Decimal) : List Char :=
  let (digits, e) := d.significant
  if digits.isEmpty then if layout.wholePoint then ['0', '.', '0'] else ['0']
  else if -4 ≤ e && e < layout.scientificFrom then positional layout.wholePoint digits e
  else scientific digits e

end Decimal

end Reckoner
