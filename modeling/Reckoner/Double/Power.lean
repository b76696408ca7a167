import Reckoner.Enclosure.Elementary
/-!
# Powers of binary64 numbers

The number nearest to `x ^ y`. A power of a positive number is halfway between two numbers, or one
itself, only if it is a fraction over a power of two; such powers are found exactly (`dyadic?`), and
enclosing decides all others. A negative base has powers with whole exponents only. Everything to the
power zero is one, and so is every power of one, even where the other number is `nan`. The power one
half is the square root, also in that it keeps the sign of a zero and has no value at negative infinity.
-/

namespace Reckoner.Double

/-- The odd part of a positive number and the power of two beside it; `fuel` bounds the power. -/
def oddPart : (fuel n : Nat) → Nat × Nat
  | 0, n => (n, 0)
  | fuel + 1, n =>
    if n % 2 = 1 then (n, 0)
    else
      let (odd, twos) := oddPart fuel (n / 2)
      (odd, twos + 1)

/-- A number written as an odd number times a power of two. -/
structure OddScaled where
  odd : Nat
  exponent : Int

/-- The value of a positive number of units. -/
def oddScaled (units : Nat) : OddScaled :=
  let (odd, twos) := oddPart units.log2 units
  ⟨odd, (twos : Int) - 1074⟩

/-- Halves the exponent of the power by taking the root of the base, while the root is exact and the
exponent `numerator * 2 ^ scale` is no integer. -/
def takeRoots : (fuel : Nat) → (base : OddScaled) → (scale : Int) → OddScaled × Int
  | 0, base, scale => (base, scale)
  | fuel + 1, base, scale =>
    let root := floorSqrt base.odd
    if scale < 0 && root * root = base.odd && base.exponent % 2 = 0 then
      takeRoots fuel ⟨root, base.exponent / 2⟩ (scale + 1)
    else (base, scale)

/-- The power of a positive base as an odd number times a power of two, where it has this form and the
odd number has less than 54 bits. -/
def dyadic? (base : OddScaled) (negative : Bool) (exponent : OddScaled) : Option OddScaled :=
  let (base, scale) := takeRoots 64 base exponent.exponent
  if scale < 0 then none
  else if base.odd = 1 then
    some ⟨1, base.exponent * signed negative (exponent.odd <<< scale.toNat)⟩
  else if negative || 64 ≤ scale || 64 ≤ exponent.odd <<< scale.toNat then none
  else
    let whole := exponent.odd <<< scale.toNat
    let odd := Nat.pow base.odd whole
    if odd < 1 <<< 54 then some ⟨odd, base.exponent * whole⟩ else none

/-- An odd number times a power of two, the exponent first cut to where it no longer matters. -/
def ofOddScaled (x : OddScaled) : Double := ofScaled false x.odd (max (-1200) (min 1100 x.exponent))

/-- The power of a positive finite number other than one; both numbers are given in units. -/
def positivePower (base : Nat) (exponent : Int) : Double :=
  match dyadic? (oddScaled base) (exponent < 0) (oddScaled exponent.natAbs) with
  | some x => ofOddScaled x
  | none =>
    let attempt (p : Nat) : Option Double :=
      let logarithm := (Enclosure.ln p base 1074).scale exponent unitsPerOne
      if 720 * Enclosure.one p < logarithm.lo then some (infinite false)
      else if logarithm.hi < -760 * Enclosure.one p then some (zero false)
      else
        let (y, power) := logarithm.exp p
        y.agreed? (power - p)
    Enclosure.refine attempt 8 (192 + (exponent.natAbs.log2 - 1074))

def isOdd (x : Double) : Bool := x.toInt?.any (· % 2 = 1)

/-- The magnitude of a power of a base that is neither `nan` nor of magnitude one, for an exponent that
is neither `nan` nor zero. -/
def powerMagnitude (base exponent : Double) : Double :=
  let one := ofNat 1
  let magnitude := base.withSign false
  match magnitude, exponent with
  | finite _ rank, finite negative other =>
    if rank.val = 0 then if negative then infinite false else zero false
    else positivePower (unitsOfRank rank) (signed negative (unitsOfRank other))
  | _, _ =>
    if magnitude.less one = exponent.isNegative then infinite false else zero false

def pow (x y : Double) : Double :=
  let one := ofNat 1
  if y.isZero || x = one then one
  else if y = one.div (ofNat 2) then x.sqrt
  else if x.isNan || y.isNan then nan
  else if x.isNegative && !x.isZero && !x.isInfinite && !y.isInfinite && y.toInt?.isNone then nan
  else
    let magnitude := if x.withSign false = one then one else powerMagnitude x y
    magnitude.withSign (x.isNegative && y.isOdd)

end Reckoner.Double
