import Reckoner.Display
import Reckoner.Double.Arithmetic
/-!
# The memory register

One number that the keys `m+`, `m-`, `mc` and `mr` add to, subtract from, clear and read.
-/

namespace Reckoner

inductive MemoryKey where
  | add
  | subtract
  | clear
  | read
  deriving DecidableEq

namespace MemoryKey

def all : List MemoryKey := [add, subtract, clear, read]

def name : MemoryKey → String
  | add => "m+"
  | subtract => "m-"
  | clear => "mc"
  | read => "mr"

def named? (name : String) : Option MemoryKey := all.find? (·.name = name)

def ofDatum (given : Datum) : Except Fault MemoryKey :=
  let named := match given with
    | .text s => named? s
    | _ => none
  match named with
  | some key => .ok key
  | none => .error (.unknownMemoryKey given)

end MemoryKey

structure Memory where
  value : Double
  deriving DecidableEq

namespace Memory

def empty : Memory := ⟨.zero false⟩

def add (m : Memory) (x : Double) : Memory := ⟨m.value.add x⟩

def subtract (m : Memory) (x : Double) : Memory := ⟨m.value.sub x⟩

/-- The register after a key while the display shows `x`, and what is recalled. -/
def press (m : Memory) (key : MemoryKey) (x : Double) : Memory × Option Double :=
  match key with
  | .add => (m.add x, none)
  | .subtract => (m.subtract x, none)
  | .clear => (empty, none)
  | .read => (m, some m.value)

/-- A key and a display from a caller. The key is looked at first, and then the display, even where
the key has no use for it. -/
def pressData (m : Memory) (key display : Datum) : Except Fault (Memory × Option Double) := do
  let key ← MemoryKey.ofDatum key
  return m.press key (← Display.ofDatum display)

end Memory

end Reckoner
