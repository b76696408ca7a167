import Reckoner.Datum
/-!
# Why an expression has no value

Each cause has one kind and one wording.
-/

namespace Reckoner

inductive ErrorKind where
  | stackUnderflow
  | unknownOperator
  | invalidArgument
  | malformedExpression
  deriving DecidableEq

namespace ErrorKind

def all : List ErrorKind := [stackUnderflow, unknownOperator, invalidArgument, malformedExpression]

def code : ErrorKind → String
  | stackUnderflow => "stack_underflow"
  | unknownOperator => "unknown_operator"
  | invalidArgument => "invalid_argument"
  | malformedExpression => "malformed_expression"

def label : ErrorKind → String
  | stackUnderflow => "STACK_UNDERFLOW"
  | unknownOperator => "UNKNOWN_OPERATOR"
  | invalidArgument => "INVALID_ARGUMENT"
  | malformedExpression => "MALFORMED_EXPRESSION"

def ofCode? (code : String) : Option ErrorKind := all.find? (·.code = code)

end ErrorKind

inductive EvaluationError where
  /-- A `)` without an open group. -/
  | unexpectedClose
  /-- A `(` that is never closed. -/
  | unclosedGroup
  /-- A token of no known type in an infix sequence. -/
  | unknownToken (name : String)
  | missingOperand (name : String)
  | unknownOperator (name : String)
  | badFactorial (argument : Double)
  | empty
  /-- More than one value is left where one is expected. -/
  | leftover (count : Nat)
  deriving DecidableEq

namespace EvaluationError

def kind : EvaluationError → ErrorKind
  | unexpectedClose | unclosedGroup | empty | leftover _ => .malformedExpression
  | unknownToken _ | unknownOperator _ => .unknownOperator
  | missingOperand _ => .stackUnderflow
  | badFactorial _ => .invalidArgument

def message : EvaluationError → String
  | unexpectedClose => "Mismatched parentheses: unexpected ')'"
  | unclosedGroup => "Mismatched parentheses: unclosed '('"
  | unknownToken name => "Unknown token: " ++ name
  | missingOperand name => "Insufficient operands for " ++ name
  | unknownOperator name => "Invalid operator: " ++ name
  | badFactorial argument => "Invalid factorial argument: " ++ argument.renderBrief
  | empty => "Empty expression"
  | leftover count => "Stack has " ++ toString count ++ " elements after evaluation, expected 1"

end EvaluationError

/-- An error as it is reported: a wording, which a caller may make up, and its kind. -/
structure ErrorReport where
  message : Datum
  kind : ErrorKind

def EvaluationError.report (e : EvaluationError) : ErrorReport := ⟨.text e.message, e.kind⟩

/-- The report in one line, with its wording quoted. -/
def ErrorReport.summary (r : ErrorReport) : String :=
  "EvaluationError(" ++ r.message.shown ++ ", ErrorKind." ++ r.kind.label ++ ")"

end Reckoner
