import Reckoner.Enclosure.Elementary
/-!
# Elementary functions of binary64 numbers

The number nearest to the exact value. The value at a finite argument is never halfway between two
numbers, except where it is one, so enclosing it more and more closely always decides. Arguments at
which the value is zero are answered outright; what has no value is `nan`.
-/

namespace Reckoner.Double

/-- Where the precision starts: enough for a result as small as the argument, and for an argument
that has to be reduced from its full size. -/
def startingPrecision (units : Nat) : Nat := 192 + (1074 - units.log2) + (units.log2 - 1074)

/-- The odd function whose magnitude at a positive argument, given in units, is enclosed by `f`. -/
def oddFunction (atInfinity : Bool → Double) (f : (p units : Nat) → Option Enclosure) :
    Double → Double
  | nan => nan
  | infinite negative => atInfinity negative
  | finite negative rank =>
    if rank.val = 0 then zero negative
    else
      let units := unitsOfRank rank
      let y := Enclosure.refine (fun p => (f p units).bind (·.agreed? (-p))) 8
        (startingPrecision units)
      if negative then y.negate else y

/-- The function whose value at a finite argument, given in units, is enclosed by `f`. -/
def functionOfUnits (atInfinity : Bool → Double) (f : (p : Nat) → (units : Int) → Option Enclosure) :
    Double → Double
  | nan => nan
  | infinite negative => atInfinity negative
  | finite negative rank =>
    let units := unitsOfRank rank
    Enclosure.refine (fun p => (f p (signed negative units)).bind (·.agreed? (-p))) 8
      (startingPrecision units)

/-- The argument itself. -/
def enclosed (p : Nat) (units : Int) : Enclosure := .ofRatio p units unitsPerOne

/-- The root of one minus the square of the argument. -/
def enclosedCofactor (p : Nat) (units : Int) : Enclosure :=
  let square := unitsPerOne * unitsPerOne
  (Enclosure.ofRatio p ((square : Int) - units * units) square).sqrt p

def sin : Double → Double := oddFunction (fun _ => nan) fun p u => some ((enclosed p u).sin p)

def cos : Double → Double := functionOfUnits (fun _ => nan) fun p u => some ((enclosed p u).cos p)

def tan : Double → Double := oddFunction (fun _ => nan) fun p u => (enclosed p u).tan? p

def atan : Double → Double :=
  let quarterTurn (negative : Bool) :=
    withSign negative (Enclosure.refine (fun p => (Enclosure.halfPi p).agreed? (-p)) 8 192)
  oddFunction quarterTurn fun p u => Enclosure.atanRatio? p (enclosed p u) (.ofInt p 1)

def asin (x : Double) : Double :=
  if x.units?.any (·.natAbs ≤ unitsPerOne) then
    oddFunction (fun _ => nan) (fun p u => Enclosure.atanRatio? p (enclosed p u) (enclosedCofactor p u)) x
  else nan

def acos (x : Double) : Double :=
  if x.units? = some unitsPerOne then zero false
  else if x.units?.any (·.natAbs ≤ unitsPerOne) then
    functionOfUnits (fun _ => nan) (fun p u =>
      let angle := Enclosure.atanRatio? p (enclosedCofactor p u) (enclosed p u.natAbs)
      if u < 0 then angle.map (((Enclosure.halfPi p).scale 2 1).sub ·) else angle) x
  else nan

/-- A logarithm: zero at one, without value below zero. -/
def logarithm (f : (p units : Nat) → Option Enclosure) (x : Double) : Double :=
  if x.isZero then infinite true
  else if x.isNegative then nan
  else if x.units? = some unitsPerOne then zero false
  else functionOfUnits infinite (fun p u => f p u.natAbs) x

def ln : Double → Double := logarithm fun p u => some (Enclosure.ln p u 1074)

def log10 : Double → Double :=
  logarithm fun p u => (Enclosure.ln p u 1074).div? p (Enclosure.ln p 10 0)

end Reckoner.Double
