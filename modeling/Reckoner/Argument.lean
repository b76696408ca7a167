import Reckoner.Fault
import Reckoner.Decimal.Numeral
/-!
# Arguments from callers

What a caller's value stands for where a text or a number is asked for.
-/

namespace Reckoner.Datum

/-- The text that a caller hands over: anything that is not given is empty. -/
def text? (given : Datum) : Except Fault String :=
  match given with
  | .text s => .ok s
  | _ => if given.isGiven then .error (.notText given) else .ok ""

/-- The nearest number to an integer; beyond the finite numbers there is none. -/
def doubleOfInt? (n : Int) : Except Fault Double :=
  let x := Double.ofInt n
  if x.isInfinite then .error .integerTooLarge else .ok x

/-- The number that a caller hands over, written or as it is. -/
def toDouble? : Datum → Except Fault Double
  | .text s => match Numeral.double? s with
    | some x => .ok x
    | none => .error (.notANumeral s)
  | given => match given.number? with
    | some (.float x) => .ok x
    | some (.int n) => doubleOfInt? n
    | none => .error (.notConvertible given)

/-- What two values share that count as one where values are compared: a number is its value, and truth
values are numbers. -/
inductive Identity where
  | null
  | int (n : Int)
  | float (x : Double)
  | text (s : String)
  deriving DecidableEq

/-- The identity of a value; lists and records have none. -/
def identity : Datum → Except Fault Identity
  | null => .ok .null
  | bool b => .ok (.int b.toInt)
  | int n => .ok (.int n)
  | float x => .ok (x.toInt?.elim (.float x) .int)
  | text s => .ok (.text s)
  | given => .error (.unhashable given)

/-- Only a text and a list have a start that they can be cut to. -/
def checkSliceable (given : Datum) : Except Fault Unit :=
  match given with
  | .text _ | .list _ => .ok ()
  | .record _ => .error .keyNotSliceable
  | _ => .error (.notSliceable given)

end Reckoner.Datum
