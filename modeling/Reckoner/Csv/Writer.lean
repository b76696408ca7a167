/-!
# Writing CSV

Fields between commas, rows ended by a line feed. A field with a comma, a quote or a line end in it
stands between quotes, with its own quotes doubled.
-/

namespace Reckoner.Csv

def needsQuotes (c : Char) : Bool := c = ',' || c = '"' || c = '\n' || c = '\r'

def writeField (field : List Char) : List Char :=
  if field.any needsQuotes then
    '"' :: (field.flatMap (fun c => if c = '"' then ['"', '"'] else [c]) ++ ['"'])
  else field

def writeRow (fields : List (List Char)) : List Char :=
  [','].intercalate (fields.map writeField) ++ ['\n']

def write (rows : List (List String)) : String :=
  String.ofList (rows.flatMap fun row => writeRow (row.map String.toList))

end Reckoner.Csv
