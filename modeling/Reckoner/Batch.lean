import Reckoner.Csv.Writer
import Reckoner.Session
/-!
# Batches

A list of expressions is evaluated one by one in a session; each gives one row, with its value or with
`nan` and why it has none.
-/

namespace Reckoner

structure BatchRow where
  expression : Datum
  result : Double
  error : Option EvaluationError

namespace Batch

/-- The row of one expression. One that failed is cut for the log, so it must be of a kind that can be
cut. -/
def evaluateRow (s : Session) (expression : Datum) : Except Fault BatchRow × Session :=
  match s.evaluateData expression with
  | (.ok x, s) => (.ok ⟨expression, x, none⟩, s)
  | (.error (.evaluation e), s) =>
    (expression.checkSliceable.map fun _ => ⟨expression, .nan, some e⟩, s)
  | (.error f, s) => (.error f, s)

def rowLog (row : BatchRow) : List LogEvent :=
  match row.error with
  | some e => [.rowFailed row.expression.plain e]
  | none => []

/-- The rows of the expressions in order, up to a fault that is no evaluation error. -/
def evaluateRows (s : Session) : List Datum → Except Fault (List BatchRow) × Session × List LogEvent
  | [] => (.ok [], s, [])
  | expression :: rest =>
    match evaluateRow s expression with
    | (.error f, s) => (.error f, s, [])
    | (.ok row, s) =>
      let (rows, s, log) := evaluateRows s rest
      (rows.map (row :: ·), s, rowLog row ++ log)

def failures (rows : List BatchRow) : Nat := (rows.filter (·.error.isSome)).length

def evaluate (s : Session) (expressions : List Datum) :
    Except Fault (List BatchRow) × Session × List LogEvent :=
  match evaluateRows s expressions with
  | (.ok rows, s, log) => (.ok rows, s, log ++ [.batchDone rows.length (failures rows)])
  | stopped => stopped

/-- The rows as a CSV text; a result that is `nan` and a missing error are empty fields. -/
def csv (rows : List BatchRow) : String :=
  Csv.write (["expression", "result", "error"] :: rows.map fun row =>
    [row.expression.plain, if row.result.isNan then "" else row.result.render,
      (row.error.map EvaluationError.message).getD ""])

/-- The line that reports a row. -/
def reportLine (row : BatchRow) : String :=
  match row.error with
  | none => row.expression.plain ++ " = " ++ row.result.render
  | some e => row.expression.plain ++ ": " ++ e.message

end Batch

end Reckoner
