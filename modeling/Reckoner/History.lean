import Reckoner.Argument
/-!
# The history of expressions

Expressions with their results, the newest first, and a bound beyond which the oldest is dropped.
-/

namespace Reckoner

structure History (α : Type) where
  bound : Datum.Bound
  entries : List (α × Double)

namespace History

variable {α : Type}

def ofBound (bound : Datum.Bound) : History α := ⟨bound, []⟩

/-- A history of the size that a caller asks for; it has to be above zero. -/
def create (size : Datum) : Except Fault (History α) :=
  match size.number? with
  | none => .error (.incomparable "<=" size.kind "int")
  | some n => match n.sign? with
    | some 0 | some (.negSucc _) => .error (.historyTooSmall size)
    | _ => .ok (ofBound n.bound)

/-- The first entries that a bound allows. -/
def fitted (bound : Datum.Bound) (entries : List (α × Double)) : List (α × Double) :=
  match bound with
  | .unbounded => entries
  | .atMost n => entries.take n.toNat

def add (h : History α) (expression : α) (result : Double) : History α :=
  { h with entries := fitted h.bound ((expression, result) :: h.entries) }

/-- The entry that goes when a new one comes. -/
def dropped? (h : History α) (expression : α) (result : Double) : Option (α × Double) :=
  match h.bound with
  | .unbounded => none
  | .atMost n => ((expression, result) :: h.entries)[n.toNat]?

/-- Enters an expression from a caller. One that is dropped is cut for the record once it is gone, so
it has to be of a kind that can be cut. -/
def addDatum (h : History Datum) (expression : Datum) (result : Double) :
    Except Fault Unit × History Datum :=
  let checked := match h.dropped? expression result with
    | some (dropped, _) => dropped.checkSliceable
    | none => .ok ()
  (checked, h.add expression result)

def clear (h : History α) : History α := { h with entries := [] }

def expressions (h : History α) : List α := h.entries.map (·.1)

/-- The expression at a position, the newest at zero. -/
def expressionAt? (h : History α) : (position : Int) → Option α
  | .ofNat i => h.expressions[i]?
  | .negSucc _ => none

/-- The expression at a position from a caller. A position that is no whole number is refused as an
index only where it lies inside. -/
def expressionAtDatum (h : History α) (position : Datum) : Except Fault α :=
  match position.number? with
  | none => .error (.incomparable "<=" "int" position.kind)
  | some (.int i) => match h.expressionAt? i with
    | some expression => .ok expression
    | none => .error (.noHistoryEntry position)
  | some (.float x) =>
    let inside := !x.isNan && !x.less (.zero false) && x.less (.ofNat h.entries.length)
    .error (if inside then .notAnIndex position else .noHistoryEntry position)

/-- How a table shows a column of expressions: next to text, a missing one is `nan`. -/
def column (expressions : List Datum) : List Datum :=
  let isText : Datum → Bool
    | .text _ => true
    | _ => false
  if expressions.any isText then
    expressions.map fun
      | .null => .text (Double.render .nan)
      | d => d
  else expressions

end History

end Reckoner
