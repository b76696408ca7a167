import Reckoner.Enclosure.Series
/-!
# Enclosures of elementary functions

Each argument is reduced to where its series converges fast: sine and cosine by multiples of a quarter
turn, the arc tangent by halving the angle three times, the logarithm and the exponential by powers of
two.
-/

namespace Reckoner.Enclosure

/-- The values of `f` at everything enclosed, from its value in the middle and a bound on its slope. -/
def lipschitz (slope : Nat) (x : Enclosure) (f : Int → Enclosure) : Enclosure :=
  let y := f x.middle
  let room : Int := (slope * x.radius : Nat)
  ⟨y.lo - room, y.hi + room⟩

/-! ## Circular functions -/

/-- The number of quarter turns nearest to an angle, and what is left of the angle. -/
def quarterTurns (p : Nat) (x : Enclosure) : Int × Enclosure :=
  let quarter := halfPi p
  let turns := (2 * x.middle + quarter.middle).fdiv (2 * quarter.middle)
  (turns, x.sub (quarter.scale turns 1))

/-- The sine of an angle that lies `turns` quarter turns beyond `x`. -/
def sinBeyond (p : Nat) (turns : Int) (x : Enclosure) : Enclosure :=
  match turns.emod 4 with
  | 0 => lipschitz 1 x (sinSeries p)
  | 1 => lipschitz 1 x (cosSeries p)
  | 2 => (lipschitz 1 x (sinSeries p)).neg
  | _ => (lipschitz 1 x (cosSeries p)).neg

def sin (p : Nat) (x : Enclosure) : Enclosure :=
  let (turns, rest) := quarterTurns p x
  sinBeyond p turns rest

def cos (p : Nat) (x : Enclosure) : Enclosure :=
  let (turns, rest) := quarterTurns p x
  sinBeyond p (turns + 1) rest

def tan? (p : Nat) (x : Enclosure) : Option Enclosure :=
  let (turns, rest) := quarterTurns p x
  let sine := sinBeyond p turns rest
  let cosine := sinBeyond p (turns + 1) rest
  if cosine.hi < 0 then div? p sine.neg cosine.neg else div? p sine cosine

/-- The tangent of half the angle whose tangent is `x`. -/
def halveAngle? (p : Nat) (x : Enclosure) : Option Enclosure :=
  div? p x ((ofInt p 1).add (((ofInt p 1).add (x.square p)).sqrt p))

/-- The arc tangent of a number from zero to about one. -/
def atanUnit? (p : Nat) (x : Enclosure) : Option Enclosure := do
  let x ← halveAngle? p (← halveAngle? p (← halveAngle? p x))
  return (lipschitz 1 x (atanSeries p)).scale 8 1

/-- The angle in the first quadrant whose tangent is `num / den`, neither of them negative. -/
def atanRatio? (p : Nat) (num den : Enclosure) : Option Enclosure := do
  if num.hi ≤ den.lo then atanUnit? p (← div? p num den)
  else return (halfPi p).sub (← atanUnit? p (← div? p den num))

/-! ## Logarithm and exponential -/

/-- The natural logarithm of the positive number `n / 2 ^ e`. -/
def ln (p n e : Nat) : Enclosure :=
  let size := n.log2
  let size := if 4 <<< size < 3 * n then size + 1 else size
  let power := 1 <<< size
  let argument := ofRatio p ((n : Int) - (power : Int)) (n + power)
  ((lipschitz 2 argument (atanhSeries p)).scale 2 1).add ((ln2 p).scale ((size : Int) - e) 1)

/-- The exponential as an enclosure and the power of two that it is multiplied by. -/
def exp (p : Nat) (x : Enclosure) : Enclosure × Int :=
  let unit := ln2 p
  let power := (2 * x.middle + unit.middle).fdiv (2 * unit.middle)
  (lipschitz 2 (x.sub (unit.scale power 1)) (expSeries p), power)

end Reckoner.Enclosure
