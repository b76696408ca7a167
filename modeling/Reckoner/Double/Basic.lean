/-!
# Binary64 numbers

A finite number is a sign and a *rank*: its place among the non-negative finite numbers, counted
from zero. Every finite number is a whole multiple of the least positive one, `2 ^ -1074`;
`unitsOfRank` says which multiple, so arithmetic is exact on integers and rounds once, in `ofRatio`.

`ofRatio` goes to the nearest number, a tie to the even rank, and to infinity from half a step
above the greatest finite number on.
-/

namespace Reckoner

/-- How many numbers lie from one power of two to the next. -/
def Double.binade : Nat := 1 <<< 52

/-- How many non-negative finite numbers there are. -/
def Double.finiteCount : Nat := 2047 * binade

/-- A binary64 number; one `nan` stands for all of them. -/
inductive Double where
  | nan
  | infinite (negative : Bool)
  | finite (negative : Bool) (rank : Fin Double.finiteCount)
  deriving DecidableEq

namespace Double

/-! ## Ranks and units -/

/-- The multiple of `2 ^ -1074` that the rank stands for: the ranks of the first binade are evenly
spaced, the next ones as well, and from there on the spacing doubles with every binade. -/
def unitsOfRank (rank : Nat) : Nat :=
  if rank < binade then rank else (binade + rank % binade) <<< (rank / binade - 1)

/-- How many units make one. -/
def unitsPerOne : Nat := 1 <<< 1074

/-- A signed natural number. -/
def signed (negative : Bool) (n : Nat) : Int := if negative then -n else n

/-- The exact value in units of `2 ^ -1074`; `none` for infinities and `nan`. -/
def units? : Double → Option Int
  | finite negative rank => some (signed negative (unitsOfRank rank))
  | _ => none

def zero (negative : Bool) : Double := finite negative ⟨0, by decide⟩

instance : Inhabited Double := ⟨zero false⟩

/-! ## Rounding -/

/-- The quotient to the nearest integer, a half to the even one. -/
def divNearest (num den : Nat) : Nat :=
  let twice := 2 * (num % den)
  let quotient := num / den
  if twice < den then quotient
  else if twice = den then quotient + quotient % 2
  else quotient + 1

/-- Numerator and denominator of `num / den / 2 ^ e`. -/
def scaleDown (num den : Nat) : Int → Nat × Nat
  | .ofNat e => (num, den <<< e)
  | .negSucc e => (num <<< (e + 1), den)

/-- The floor of the binary logarithm of a positive fraction. -/
def floorLog2 (num den : Nat) : Int :=
  let guess : Int := (num.log2 : Int) - (den.log2 : Int)
  let scaled := scaleDown num den guess
  if scaled.1 < scaled.2 then guess - 1 else guess

/-- The rank nearest to a fraction, a tie to the even rank, as if ranks had no end. -/
def nearestRank (num den : Nat) : Nat :=
  if num = 0 then 0 else
    let spacing := max (floorLog2 num den - 52) (-1074)
    let scaled := scaleDown num den spacing
    (spacing + 1074).toNat * binade + divNearest scaled.1 scaled.2

def ofRank (negative : Bool) (rank : Nat) : Double :=
  if h : rank < finiteCount then finite negative ⟨rank, h⟩ else infinite negative

/-- The number nearest to `num / den` with the given sign; `den` is positive. -/
def ofRatio (negative : Bool) (num den : Nat) : Double := ofRank negative (nearestRank num den)

/-- The number nearest to `n * 2 ^ e` with the given sign. -/
def ofScaled (negative : Bool) (n : Nat) : Int → Double
  | .ofNat e => ofRatio negative (n <<< e) 1
  | .negSucc e => ofRatio negative n (1 <<< (e + 1))

def ofNat (n : Nat) : Double := ofRatio false n 1

def ofInt (n : Int) : Double := ofRatio (n < 0) n.natAbs 1

/-! ## Classes and order -/

def isNan : Double → Bool
  | nan => true
  | _ => false

def isInfinite : Double → Bool
  | infinite _ => true
  | _ => false

/-- Whether the number carries a minus sign, on a zero too. -/
def isNegative : Double → Bool
  | nan => false
  | infinite negative => negative
  | finite negative _ => negative

def isZero : Double → Bool
  | finite _ rank => rank.val = 0
  | _ => false

/-- The place on the extended number line, both zeros at 0; `none` for `nan`. -/
def place? : Double → Option Int
  | nan => none
  | infinite negative => some (signed negative finiteCount)
  | finite negative rank => some (signed negative rank)

/-- Numeric equality: the zeros are equal and `nan` equals nothing. -/
def equals (x y : Double) : Bool :=
  match x.place?, y.place? with
  | some i, some j => i = j
  | _, _ => false

/-- Numeric order; false as soon as one side is `nan`. -/
def less (x y : Double) : Bool :=
  match x.place?, y.place? with
  | some i, some j => i < j
  | _, _ => false

/-- The greatest integer not above a finite number. -/
def floor? (x : Double) : Option Int := x.units?.map (·.fdiv unitsPerOne)

/-- The integer that a number is, if it is one. -/
def toInt? (x : Double) : Option Int :=
  x.units?.bind fun u => if u % unitsPerOne = 0 then some (u.fdiv unitsPerOne) else none

/-! ## Sign -/

def negate : Double → Double
  | nan => nan
  | infinite negative => infinite !negative
  | finite negative rank => finite (!negative) rank

def withSign (negative : Bool) : Double → Double
  | nan => nan
  | infinite _ => infinite negative
  | finite _ rank => finite negative rank

end Double

end Reckoner
