/-!
# Why a CSV text is no table
-/

namespace Reckoner.Csv

inductive Error where
  /-- The text has no rows at all. -/
  | noColumns
  /-- A row has more fields than the one before it. -/
  | tooManyFields (expected line seen : Nat)
  /-- A quote is still open at the end; `row` counts the lines before its row. -/
  | openQuote (row : Nat)
  deriving DecidableEq

def Error.message : Error → String
  | noColumns => "No columns to parse from file"
  | tooManyFields expected line seen =>
    "Error tokenizing data. C error: Expected " ++ toString expected ++ " fields in line " ++
      toString line ++ ", saw " ++ toString seen ++ "\n"
  | openQuote row =>
    "Error tokenizing data. C error: EOF inside string starting at row " ++ toString row

end Reckoner.Csv
