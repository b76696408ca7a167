import Reckoner.Decimal.Shortest
import Reckoner.Text.Quoted
/-!
# Values from callers

A caller may hand over any plain value where an expression, a mode, a size or a number is asked for.
`Datum` is such a value; `shown` is how messages write it and `kind` the name they give to its kind.
-/

namespace Reckoner

inductive Datum where
  | null
  | bool (b : Bool)
  | int (n : Int)
  | float (x : Double)
  | text (s : String)
  | list (items : List Datum)
  | record (fields : List (String × Datum))

namespace Datum

instance : Inhabited Datum := ⟨null⟩

def kind : Datum → String
  | null => "NoneType"
  | bool _ => "bool"
  | int _ => "int"
  | float _ => "float"
  | text _ => "str"
  | list _ => "list"
  | record _ => "dict"

/-- Whether the value counts as given: zero and what is empty do not. -/
def isGiven : Datum → Bool
  | null => false
  | bool b => b
  | int n => n ≠ 0
  | float x => !x.isZero
  | text s => s ≠ ""
  | list items => !items.isEmpty
  | record fields => !fields.isEmpty

mutual
/-- A value inside a message: text is quoted. -/
def shown : Datum → String
  | null => "None"
  | bool b => if b then "True" else "False"
  | int n => toString n
  | float x => x.render
  | text s => Text.quoted s
  | list items => "[" ++ ", ".intercalate (shownItems items) ++ "]"
  | record fields => "\x7b" ++ ", ".intercalate (shownFields fields) ++ "\x7d"

def shownItems : List Datum → List String
  | [] => []
  | d :: ds => d.shown :: shownItems ds

def shownFields : List (String × Datum) → List String
  | [] => []
  | (name, d) :: fields => (Text.quoted name ++ ": " ++ d.shown) :: shownFields fields
end

/-- A value that stands in a message by itself: text is not quoted. -/
def plain : Datum → String
  | text s => s
  | d => d.shown

/-! ## Numbers -/

/-- A value that can be counted with, exactly. -/
inductive Number where
  | int (n : Int)
  | float (x : Double)

/-- The numeric reading of a value; truth values are 1 and 0. -/
def number? : Datum → Option Number
  | bool b => some (.int b.toInt)
  | int n => some (.int n)
  | float x => some (.float x)
  | _ => none

/-- Whether a number is above zero, at zero or below; `none` for `nan`. -/
def Number.sign? : Number → Option Int
  | .int n => some n.sign
  | .float x => x.place?.map Int.sign

/-- An upper bound on a count. -/
inductive Bound where
  | atMost (n : Int)
  | unbounded
  deriving DecidableEq

/-- What a number allows as an upper bound on a count: its floor. Positive infinity and `nan` refuse
nothing; negative infinity refuses everything, as does any number below zero. -/
def Number.bound : Number → Bound
  | .int n => .atMost n
  | .float x => match x.floor? with
    | some n => .atMost n
    | none => if x.isNegative then .atMost (-1) else .unbounded

end Datum

end Reckoner
