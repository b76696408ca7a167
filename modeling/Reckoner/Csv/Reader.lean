import Reckoner.Csv.Error
/-!
# Reading CSV

A text is cut into records character by character (`Csv.records`): fields end at commas, records at
line ends, a field that begins with a quote runs to the closing quote over commas and line ends, and
text after the closing quote is appended. Records that are empty or hold only spaces and tabs count as
lines but are dropped.

The first record names the columns (`Csv.table`). Rows that are short are filled up to the width of
the row before, and the first row may be longer than the header; then the names belong to its last
columns.
-/

namespace Reckoner.Csv

/-! ## Records -/

/-- Where the next character stands. -/
inductive Place where
  | recordStart
  /-- After spaces and tabs at the start of a record, the last one first. -/
  | blank (held : List Char)
  | fieldStart
  | plain
  | quoted
  /-- After a quote inside a quoted field. -/
  | quoteSeen
  /-- After a carriage return that ends a record. -/
  | carriageReturn
  /-- After a carriage return that ends a dropped line. -/
  | droppedReturn
  deriving DecidableEq

/-- A record and the number of its line. -/
structure Record where
  fields : List (List Char)
  line : Nat

/-- What has been read; all lists are reversed. -/
structure Cutter where
  place : Place
  field : List Char
  fields : List (List Char)
  records : List Record
  lines : Nat

namespace Cutter

def start : Cutter := ⟨.recordStart, [], [], [], 0⟩

def push (r : Cutter) (c : Char) : Cutter := { r with place := .plain, field := c :: r.field }

def endField (r : Cutter) (next : Place) : Cutter :=
  { r with place := next, field := [], fields := r.field.reverse :: r.fields }

def endRecord (r : Cutter) : Cutter :=
  { r with
    place := .recordStart
    fields := []
    records := ⟨r.fields.reverse, r.lines + 1⟩ :: r.records
    lines := r.lines + 1 }

def dropLine (r : Cutter) (next : Place) : Cutter :=
  { r with place := next, field := [], lines := r.lines + 1 }

/-- A character that may end an unquoted field. -/
def inField (r : Cutter) (c : Char) : Cutter :=
  if c = '\n' then (r.endField .recordStart).endRecord
  else if c = '\r' then r.endField .carriageReturn
  else if c = ',' then r.endField .fieldStart
  else r.push c

def atFieldStart (r : Cutter) (c : Char) : Cutter :=
  if c = '"' then { r with place := .quoted } else r.inField c

def atRecordStart (r : Cutter) (c : Char) : Cutter :=
  if c = '\n' then r.dropLine .recordStart
  else if c = '\r' then r.dropLine .droppedReturn
  else if c = ' ' || c = '\t' then { r with place := .blank [c] }
  else r.atFieldStart c

def step (r : Cutter) (c : Char) : Cutter :=
  match r.place with
  | .recordStart => r.atRecordStart c
  | .blank held =>
    if c = '\n' then r.dropLine .recordStart
    else if c = '\r' then r.dropLine .droppedReturn
    else if c = ' ' || c = '\t' then { r with place := .blank (c :: held) }
    else { r with field := held }.inField c
  | .fieldStart => r.atFieldStart c
  | .plain => r.inField c
  | .quoted => if c = '"' then { r with place := .quoteSeen } else { r with field := c :: r.field }
  | .quoteSeen => if c = '"' then { r with place := .quoted, field := c :: r.field } else r.inField c
  | .carriageReturn => if c = '\n' then r.endRecord else r.endRecord.atRecordStart c
  | .droppedReturn =>
    if c = '\n' then { r with place := .recordStart } else r.atRecordStart c

/-- The records at the end of the text, and the count of lines before a quote that is still open. -/
def finish (r : Cutter) : List Record × Option Nat :=
  match r.place with
  | .recordStart | .blank _ | .droppedReturn => (r.records.reverse, none)
  | .quoted => (r.records.reverse, some r.lines)
  | .carriageReturn => (r.endRecord.records.reverse, none)
  | .fieldStart | .plain | .quoteSeen =>
    ((r.endField .recordStart).endRecord.records.reverse, none)

end Cutter

def records (cs : List Char) : List Record × Option Nat :=
  (cs.foldl Cutter.step Cutter.start).finish

/-! ## Tables -/

/-- The records after the first two with their fields filled up to a width; none may be wider. -/
def fillRows (width : Nat) : List Record → Except Error (List (List (List Char)))
  | [] => .ok []
  | r :: rs =>
    if width < r.fields.length then .error (.tooManyFields width r.line r.fields.length)
    else (fill width r.fields :: ·) <$> fillRows width rs
where
  fill (width : Nat) (fields : List (List Char)) : List (List Char) :=
    fields ++ List.replicate (width - fields.length) []

/-- A column without a name is named for its position. -/
def named (header : List (List Char)) : List String :=
  header.mapIdx fun i name =>
    if name.isEmpty then "Unnamed: " ++ toString i else String.ofList name

/-- The first number from `next` on that makes `name.number` a new name. -/
def freeNumber (names : List String) (name : String) : (fuel next : Nat) → Nat
  | 0, next => next
  | fuel + 1, next =>
    if names.contains (name ++ "." ++ toString next) then freeNumber names name fuel (next + 1) else next

/-- Makes the name at a position new if it was seen before; `next` holds the number that each name seen
before takes next, the latest first. -/
def renameAt (names : List String) (next : List (String × Nat)) (i : Nat) :
    List String × List (String × Nat) :=
  let name := names.getD i ""
  match next.lookup name with
  | none => (names, (name, 1) :: next)
  | some number =>
    let number := freeNumber names name (names.length + 1) number
    let chosen := name ++ "." ++ toString number
    (names.set i chosen, (chosen, 1) :: (name, number + 1) :: next)

/-- Column names made distinct by numbering; the columns that have a name of their own come first. -/
def distinct (header : List (List Char)) : List String :=
  let positions := List.range header.length
  let isNamed (i : Nat) : Bool := !(header.getD i []).isEmpty
  let order := positions.filter isNamed ++ positions.filter (!isNamed ·)
  (order.foldl (fun (names, next) i => renameAt names next i) (named header, [])).1

structure Table where
  columns : List String
  rows : List (List String)

/-- The cells of a column. -/
def Table.column? (t : Table) (name : String) : Option (List String) :=
  (t.columns.findIdx? (· = name)).map fun i => t.rows.map fun row => row.getD i ""

/-- The table that a text holds, a byte order mark at its start dropped. -/
def table (cs : List Char) : Except Error Table := do
  let cs := match cs with
    | '\ufeff' :: cs => cs
    | cs => cs
  let (records, openQuote) := records cs
  let rows ← match records with
    | [] => pure []
    | [header] => pure [header.fields]
    | header :: first :: rest => do
      let width := max header.fields.length first.fields.length
      let rest ← fillRows width rest
      pure (header.fields :: fillRows.fill width first.fields :: rest)
  if let some row := openQuote then throw (.openQuote row)
  match rows with
  | [] => throw .noColumns
  | header :: rows =>
    let shown (field : List Char) := field.takeWhile (· ≠ '\x00')
    let surplus := (rows.head?.map List.length).getD 0 - header.length
    return {
      columns := distinct (header.map shown)
      rows := rows.map fun row => (row.drop surplus).map (String.ofList ∘ shown) }

end Reckoner.Csv
