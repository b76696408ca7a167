import Reckoner.Argument
import Reckoner.Operator
import Reckoner.Postfix
/-!
# Evaluation

`evaluatePostfix` runs a postfix sequence on a stack of numbers; `evaluate` reads a text, brings it
into postfix order and runs that. A partial evaluation is content with several values and answers the
first.
-/

namespace Reckoner

/-- The stack after one token. Whether there are operands is asked before whether the operator is
known. -/
def evaluateToken (mode : AngleMode) (stack : List Double) (t : Token) :
    Except EvaluationError (List Double) :=
  if t.type = .number then .ok (t.value.getD .nan :: stack)
  else if t.arity = 1 then
    match stack with
    | b :: stack => (· :: stack) <$> applyNamed t.name mode b b
    | [] => .error (.missingOperand t.name)
  else
    match stack with
    | b :: a :: stack => (· :: stack) <$> applyNamed t.name mode a b
    | _ => .error (.missingOperand t.name)

/-- The one value that is left, or the lowest of several. -/
def answer (partially : Bool) (stack : List Double) : Except EvaluationError Double :=
  match stack.getLast? with
  | none => .error .empty
  | some x => if 1 < stack.length && !partially then .error (.leftover stack.length) else .ok x

def evaluatePostfix (mode : AngleMode) (partially : Bool) (postfixed : List Token) :
    Except EvaluationError Double :=
  postfixed.foldlM (evaluateToken mode) [] >>= answer partially

/-- The value of a text. -/
def evaluate (mode : AngleMode) (partially : Bool) (text : String) : Except Fault Double := do
  let postfixed ← Postfix.ofTokens (tokenize text)
  (evaluatePostfix mode partially postfixed).mapError .evaluation

/-- Whether a text has the structure of one expression; no value is computed. -/
def isCompleteExpression (text : String) : Bool :=
  match Postfix.ofTokens (tokenize text) with
  | .ok postfixed => Postfix.isComplete postfixed
  | .error _ => false

/-! ## Loose arguments -/

/-- The value of an expression under a mode, both from a caller; the mode is looked at first. -/
def evaluateData (expression mode : Datum) (partially : Bool) : Except Fault Double := do
  let mode ← AngleMode.ofDatum mode
  evaluate mode partially (← expression.text?)

end Reckoner
