import Reckoner.Decimal.Basic
/-!
# The fixed vocabulary of expressions

Parentheses, operators, functions and constants, with their spelling. `Symbol.all` lists them in the
order in which they are presented; no two have one spelling.
-/

namespace Reckoner

inductive BinaryOp where
  | add
  | sub
  | mul
  | div
  | pow
  deriving DecidableEq

namespace BinaryOp

def all : List BinaryOp := [add, sub, mul, div, pow]

def spelling : BinaryOp → String
  | add => "+"
  | sub => "-"
  | mul => "*"
  | div => "/"
  | pow => "^"

/-- Every level groups to the left. -/
def precedence : BinaryOp → Int
  | add | sub => 1
  | mul | div => 2
  | pow => 3

end BinaryOp

/-- The functions of one argument that are written by name. -/
inductive Func where
  | sin
  | cos
  | tan
  | asin
  | acos
  | atan
  | log
  | ln
  | sqrt
  | fact
  deriving DecidableEq

namespace Func

def all : List Func := [sin, cos, tan, asin, acos, atan, log, ln, sqrt, fact]

def spelling : Func → String
  | sin => "sin"
  | cos => "cos"
  | tan => "tan"
  | asin => "asin"
  | acos => "acos"
  | atan => "atan"
  | log => "log"
  | ln => "ln"
  | sqrt => "sqrt"
  | fact => "fact"

/-- Whether the angle mode has a say. -/
def isTrigonometric : Func → Bool
  | sin | cos | tan | asin | acos | atan => true
  | log | ln | sqrt | fact => false

end Func

inductive Constant where
  | pi
  | e
  | i
  deriving DecidableEq

namespace Constant

def all : List Constant := [pi, e, i]

def spelling : Constant → String
  | pi => "π"
  | e => "e"
  | i => "i"

/-- The nearest numbers to π and e. There are no complex numbers, so `i` is no number. -/
def value : Constant → Double
  | pi => Decimal.round false ⟨3141592653589793, -15⟩
  | e => Decimal.round false ⟨2718281828459045, -15⟩
  | i => .nan

end Constant

/-- What is spelled in one fixed way. -/
inductive Symbol where
  | openGroup
  | closeGroup
  | binary (op : BinaryOp)
  | function (f : Func)
  | constant (c : Constant)
  deriving DecidableEq

namespace Symbol

def all : List Symbol :=
  [openGroup, closeGroup] ++ BinaryOp.all.map binary ++ Func.all.map function ++
    Constant.all.map constant

def spelling : Symbol → String
  | openGroup => "("
  | closeGroup => ")"
  | binary op => op.spelling
  | function f => f.spelling
  | constant c => c.spelling

theorem mem_all (s : Symbol) : s ∈ all := by
  rcases s with _ | _ | op | f | c
  · decide
  · decide
  · cases op <;> decide
  · cases f <;> decide
  · cases c <;> decide

end Symbol

end Reckoner
