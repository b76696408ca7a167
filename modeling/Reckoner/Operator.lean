import Reckoner.AngleMode
import Reckoner.Symbol
import Reckoner.Double.Elementary
import Reckoner.Double.Power
/-!
# Operators

What each operator and function computes. Trigonometric functions take degrees as radians times
`π / 180`, and inverse ones give radians times `180 / π`, each factor and product rounded; no other
operator depends on the mode. Only the factorial has arguments without a value.
-/

namespace Reckoner

/-- The nearest numbers to `π / 180` and `180 / π` as quotients of rounded numbers. -/
def radiansPerDegree : Double := Constant.pi.value.div (.ofNat 180)

def degreesPerRadian : Double := (Double.ofNat 180).div Constant.pi.value

namespace AngleMode

def toRadians (mode : AngleMode) (x : Double) : Double :=
  match mode with
  | radian => x
  | degree => x.mul radiansPerDegree

def ofRadians (mode : AngleMode) (x : Double) : Double :=
  match mode with
  | radian => x
  | degree => x.mul degreesPerRadian

end AngleMode

/-! ## Factorial -/

namespace Double

/-- The products on the way from `product` through `count` whole numbers from `next` on, one for each
multiplication and each rounded; they stop at infinity, which no factor changes. -/
def risingProducts (product : Double) (next : Nat) : (count : Nat) → List Double
  | 0 => []
  | count + 1 =>
    let product := product.mul (.ofNat next)
    product :: if product.isInfinite then [] else risingProducts product (next + 1) count

/-- Where the products end. -/
def risingProduct (product : Double) (next count : Nat) : Double :=
  (risingProducts product next count).getLastD product

/-- The product of the whole numbers from two on; only whole numbers from zero on have one. -/
def factorial (x : Double) : Except EvaluationError Double :=
  match x.toInt? with
  | some (.ofNat n) => .ok (risingProduct (.ofNat 1) 2 (n - 1))
  | _ => .error (.badFactorial x)

end Double

/-! ## Application -/

def BinaryOp.apply : BinaryOp → Double → Double → Double
  | add => .add
  | sub => .sub
  | mul => .mul
  | div => .div
  | pow => .pow

def Func.apply (mode : AngleMode) : Func → Double → Except EvaluationError Double
  | sin, x => .ok (mode.toRadians x).sin
  | cos, x => .ok (mode.toRadians x).cos
  | tan, x => .ok (mode.toRadians x).tan
  | asin, x => .ok (mode.ofRadians x.asin)
  | acos, x => .ok (mode.ofRadians x.acos)
  | atan, x => .ok (mode.ofRadians x.atan)
  | log, x => .ok x.log10
  | ln, x => .ok x.ln
  | sqrt, x => .ok x.sqrt
  | fact, x => x.factorial

inductive Operator where
  | binary (op : BinaryOp)
  | negation
  | function (f : Func)
  deriving DecidableEq

namespace Operator

/-- All operators in the order in which they are presented. -/
def all : List Operator := BinaryOp.all.map binary ++ [negation] ++ Func.all.map function

def name : Operator → String
  | binary op => op.spelling
  | negation => "neg"
  | function f => f.spelling

def arity : Operator → Nat
  | binary _ => 2
  | negation | function _ => 1

def named? (name : String) : Option Operator := all.find? (·.name = name)

/-- The value at `a` and `b`; operators of one operand take `a`. -/
def apply (mode : AngleMode) (a b : Double) : Operator → Except EvaluationError Double
  | binary op => .ok (op.apply a b)
  | negation => .ok a.negate
  | function f => f.apply mode a

end Operator

/-- The operator of that name at `a` and `b`. -/
def applyNamed (name : String) (mode : AngleMode) (a b : Double) : Except EvaluationError Double :=
  match Operator.named? name with
  | some op => op.apply mode a b
  | none => .error (.unknownOperator name)

end Reckoner
