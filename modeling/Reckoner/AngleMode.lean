import Reckoner.Fault
/-!
# Angle modes
-/

namespace Reckoner

/-- The unit that trigonometric functions take angles in, and inverse ones give them in. -/
inductive AngleMode where
  | radian
  | degree
  deriving DecidableEq

namespace AngleMode

def name : AngleMode → String
  | radian => "radian"
  | degree => "degree"

def toggled : AngleMode → AngleMode
  | radian => degree
  | degree => radian

/-- The mode that a text names, in any case and with blanks around it. -/
def ofName? (s : String) : Option AngleMode :=
  let word := String.ofList ((Text.strip s).toList.map Char.toLower)
  if word = "radian" then some radian else if word = "degree" then some degree else none

/-- The mode that a caller asks for. -/
def ofDatum (given : Datum) : Except Fault AngleMode :=
  let named := match given with
    | .text s => ofName? s
    | _ => none
  match named with
  | some mode => .ok mode
  | none => .error (.unknownMode given)

example : ofName? " DEGREE\u3000" = some degree ∧ ofName? "grad" = none := by decide +kernel

end AngleMode

end Reckoner
