import Reckoner.Double.Basic
/-!
# Arithmetic of binary64 numbers

The exact result, rounded once. Nothing fails: a quotient by zero is infinite, and what has no
value (`0 / 0`, `∞ - ∞`, the root of a negative number) is `nan`.
-/

namespace Reckoner.Double

/-- The signed sum of units; a zero sum is negative only when both sides are. -/
def add : Double → Double → Double
  | nan, _ | _, nan => nan
  | infinite s, infinite t => if s = t then infinite s else nan
  | infinite s, finite _ _ => infinite s
  | finite _ _, infinite t => infinite t
  | finite s a, finite t b =>
    let sum := signed s (unitsOfRank a) + signed t (unitsOfRank b)
    if sum = 0 then zero (s && t) else ofRatio (sum < 0) sum.natAbs unitsPerOne

def sub (x y : Double) : Double := x.add y.negate

def mul : Double → Double → Double
  | nan, _ | _, nan => nan
  | infinite s, infinite t => infinite (s != t)
  | infinite s, finite t b => if b.val = 0 then nan else infinite (s != t)
  | finite s a, infinite t => if a.val = 0 then nan else infinite (s != t)
  | finite s a, finite t b =>
    ofRatio (s != t) (unitsOfRank a * unitsOfRank b) (unitsPerOne * unitsPerOne)

def div : Double → Double → Double
  | nan, _ | _, nan => nan
  | infinite _, infinite _ => nan
  | infinite s, finite t _ => infinite (s != t)
  | finite s _, infinite t => zero (s != t)
  | finite s a, finite t b =>
    if b.val = 0 then if a.val = 0 then nan else infinite (s != t)
    else ofRatio (s != t) (unitsOfRank a) (unitsOfRank b)

/-! ## Square root -/

/-- The floor of the square root of a number below `4 ^ pairs`. -/
def sqrtOfPairs : (pairs : Nat) → Nat → Nat
  | 0, _ => 0
  | pairs + 1, n =>
    let root := 2 * sqrtOfPairs pairs (n / 4)
    if (root + 1) * (root + 1) ≤ n then root + 1 else root

/-- The floor of the square root. -/
def floorSqrt (n : Nat) : Nat := sqrtOfPairs (n.log2 / 2 + 1) n

/-- The nearest number to the root. Sixty more bits than the units have, and one that tells an exact
root from a cut one, leave no tie undecided. -/
def sqrt : Double → Double
  | nan => nan
  | infinite negative => if negative then nan else infinite false
  | finite negative rank =>
    if rank.val = 0 then zero negative
    else if negative then nan
    else
      let radicand := unitsOfRank rank <<< 120
      let root := floorSqrt radicand
      ofScaled false (2 * root + if root * root = radicand then 0 else 1) (-598)

end Reckoner.Double
