/-!
# Paths

The text of a path, taken apart at slashes. Names that are empty or a single point stand still and are
left out; two points stay, since they lead upwards from wherever they stand. Two slashes at the start
are kept apart from one, and more than two count as one.
-/

namespace Reckoner.Disk

structure Path where
  root : String
  names : List String
  deriving DecidableEq

namespace Path

/-- All names of a path in order, those that stand still as well. -/
def steps (text : String) : List String := (text.splitOn "/").filter (· ≠ "")

def ofText (text : String) : Path :=
  let slashes := (text.toList.takeWhile (· = '/')).length
  ⟨if slashes = 0 then "" else if slashes = 2 then "//" else "/", (steps text).filter (· ≠ ".")⟩

/-- The shortest text of a path; the place where relative paths start is a point. -/
def text (p : Path) : String :=
  let written := p.root ++ "/".intercalate p.names
  if written = "" then "." else written

/-- The path without its last name. -/
def folder (p : Path) : Path := { p with names := p.names.dropLast }

end Path

end Reckoner.Disk
