import Reckoner.Double.Arithmetic
/-!
# Enclosures

A real number between two multiples of `2 ^ -p`. Each operation rounds its lower end down and its
upper end up, so a result encloses every value that its arguments allow. A function whose exact value
is enclosed has a correctly rounded result as soon as both ends round to one number (`agreed?`);
`refine` doubles the precision until they do.
-/

namespace Reckoner

/-- The reals from `lo` to `hi` in units of `2 ^ -p`, where `p` goes with each operation. -/
structure Enclosure where
  lo : Int
  hi : Int

namespace Enclosure

/-- How many units make one. -/
def one (p : Nat) : Int := (1 <<< p : Nat)

/-- The quotient rounded up. -/
def ceilDiv (n d : Int) : Int := -((-n).fdiv d)

def ofRatio (p : Nat) (num : Int) (den : Nat) : Enclosure :=
  ⟨(num * one p).fdiv den, ceilDiv (num * one p) den⟩

def ofInt (p : Nat) (n : Int) : Enclosure := ⟨n * one p, n * one p⟩

/-- What is at most `error` units away from `value`. -/
def around (value : Int) (error : Nat) : Enclosure := ⟨value - error, value + error⟩

def middle (x : Enclosure) : Int := (x.lo + x.hi).fdiv 2

/-- How far the ends are from the middle at most. -/
def radius (x : Enclosure) : Nat := (x.hi - x.middle).natAbs + 1

def add (x y : Enclosure) : Enclosure := ⟨x.lo + y.lo, x.hi + y.hi⟩

def neg (x : Enclosure) : Enclosure := ⟨-x.hi, -x.lo⟩

def sub (x y : Enclosure) : Enclosure := x.add y.neg

/-- The product with an exact fraction. -/
def scale (x : Enclosure) (num : Int) (den : Nat) : Enclosure :=
  let a := x.lo * num
  let b := x.hi * num
  ⟨(min a b).fdiv den, ceilDiv (max a b) den⟩

/-- The square of a non-negative number. -/
def square (p : Nat) (x : Enclosure) : Enclosure :=
  ⟨(x.lo * x.lo).fdiv (one p), ceilDiv (x.hi * x.hi) (one p)⟩

/-- The root of a non-negative number. -/
def sqrt (p : Nat) (x : Enclosure) : Enclosure :=
  ⟨Double.floorSqrt (x.lo.toNat <<< p), Double.floorSqrt (x.hi.toNat <<< p) + 1⟩

/-- The quotient by a positive number; `none` if the divisor is not known to be positive. -/
def div? (p : Nat) (x y : Enclosure) : Option Enclosure :=
  if y.lo ≤ 0 then none
  else some ⟨(x.lo * one p).fdiv (if x.lo < 0 then y.lo else y.hi),
    ceilDiv (x.hi * one p) (if x.hi < 0 then y.hi else y.lo)⟩

/-- The number that everything enclosed rounds to, if there is one; a unit is `2 ^ exponent`. -/
def agreed? (x : Enclosure) (exponent : Int) : Option Double :=
  let rounded (n : Int) := Double.ofScaled (n < 0) n.natAbs exponent
  if rounded x.lo = rounded x.hi then some (rounded x.lo) else none

/-- The first answer of `attempt` at `p`, `2 * p`, `4 * p`, … -/
def refine (attempt : Nat → Option Double) : (rounds p : Nat) → Double
  | 0, _ => .nan
  | rounds + 1, p => match attempt p with
    | some x => x
    | none => refine attempt rounds (2 * p)

end Enclosure

end Reckoner
