import Reckoner.Csv.Reader
import Reckoner.Evaluation
import Reckoner.Log
import Reckoner.Text.Line
/-!
# Files of expressions

A file whose name ends in `.csv` is a table with a column of expressions; any other file has one
expression on each line. Blank expressions are dropped and the others stripped; those that are
structurally incomplete stay.
-/

namespace Reckoner.ExpressionFile

/-- Whether a path names a table. -/
def isTable (path : String) : Bool := ".csv".toList.isSuffixOf path.toList

/-- The cells of the column that a caller names. -/
def cells (table : Csv.Table) (path : String) (column : Datum) : Except Fault (List String) :=
  match column with
  | .text name => match table.column? name with
    | some cells => .ok cells
    | none => .error (.missingColumn name path)
  | _ => do
    let _ ← column.identity
    throw (.missingColumn column.plain path)

/-- The raw expressions of a file with that text. -/
def rawOfText (path : String) (column : Datum) (text : String) : Except Fault (List String) :=
  if isTable path then do
    cells (← (Csv.table text.toList).mapError Fault.csv) path column
  else .ok ((Text.lines text.toList).map String.ofList)

/-- The raw expressions of a file with that content, which has to be UTF-8. -/
def raw (path : String) (column : Datum) (content : ByteArray) : Except Fault (List String) :=
  match String.fromUTF8? content with
  | some text => rawOfText path column text
  | none => .error .undecodable

/-- What is worth a warning about the expressions of a file. -/
def warnings (raw kept : List String) : List LogEvent :=
  let blanks := raw.length - kept.length
  let incomplete := kept.filter (!isCompleteExpression ·)
  (if blanks = 0 then [] else [.blankSkipped blanks]) ++
    match incomplete with
    | [] => []
    | first :: _ => [.incompleteFound incomplete.length first]

/-- The expressions of a file, given what opening it came to. -/
def load (path : String) (column : Datum) (opened : Except Disk.Error ByteArray) :
    Except Fault (List String) × List LogEvent :=
  let loaded : Except Fault (List String) := match opened with
    | .error e => .error (.disk e path)
    | .ok content => raw path column content
  match loaded with
  | .error f => (.error f, [.loading path])
  | .ok raw =>
    let kept := (raw.map Text.strip).filter (· ≠ "")
    (.ok kept, .loading path :: warnings raw kept ++ [.loaded kept.length])

end Reckoner.ExpressionFile
