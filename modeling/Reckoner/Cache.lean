import Reckoner.Fault
/-!
# A bounded cache

Keys with their values, the one used least recently first. A key that is found moves to the end, a
new one is put there, and then the entries beyond the capacity go from the front.
-/

namespace Reckoner

/-- How many entries a cache may hold. What a caller asked for is looked at only when an entry has
been stored, so it may turn out to be no number. -/
inductive Capacity where
  | bound (b : Datum.Bound)
  | notANumber (kind : String)
  deriving DecidableEq

def Capacity.ofDatum (size : Datum) : Capacity :=
  match size.number? with
  | some n => .bound n.bound
  | none => .notANumber size.kind

namespace Cache

variable {κ ν : Type} [DecidableEq κ]

def find? (entries : List (κ × ν)) (key : κ) : Option ν :=
  (entries.find? (·.1 = key)).map (·.2)

/-- The entry of a key moved to the end. -/
def touch (entries : List (κ × ν)) (key : κ) : List (κ × ν) :=
  entries.filter (·.1 ≠ key) ++ entries.filter (·.1 = key)

/-- What is left of the entries under a capacity. Below zero everything goes, and then there is
nothing to take away. -/
def fit (capacity : Capacity) (entries : List (κ × ν)) : Except Fault Unit × List (κ × ν) :=
  match capacity with
  | .notANumber kind => (.error (.incomparable ">" "int" kind), entries)
  | .bound .unbounded => (.ok (), entries)
  | .bound (.atMost (.ofNat n)) => (.ok (), entries.drop (entries.length - n))
  | .bound (.atMost (.negSucc _)) => (.error .emptyCache, [])

/-- The entries with a new one at the end, under a capacity. -/
def store (capacity : Capacity) (entries : List (κ × ν)) (key : κ) (value : ν) :
    Except Fault Unit × List (κ × ν) :=
  fit capacity (entries ++ [(key, value)])

end Cache

end Reckoner
