import Reckoner.Fault
/-!
# Settings

The values that a run starts from, as a caller may have changed them, and what has to hold of them.
-/

namespace Reckoner

structure Settings where
  defaultMode : Datum
  allowPartial : Datum
  historySize : Datum
  cacheSize : Datum
  expressionColumn : Datum
  outputPath : Datum

namespace Settings

def standard : Settings where
  defaultMode := .text "radian"
  allowPartial := .bool false
  historySize := .int 50
  cacheSize := .int 1000
  expressionColumn := .text "expression"
  outputPath := .text "calculator_results.csv"

def require (holds : Bool) (r : Requirement) : Except Fault Unit :=
  if holds then .ok () else .error (.requirement r)

/-- Checks the requirements in order and answers what is printed when all of them hold. -/
def validate (s : Settings) : Except Fault String := do
  let known := match s.defaultMode with
    | .text name => name = "radian" || name = "degree"
    | _ => false
  require known .knownMode
  let fifty := match s.historySize.number? with
    | some (.int n) => n = 50
    | some (.float x) => x.equals (.ofNat 50)
    | none => false
  require fifty .historyOfFifty
  match s.cacheSize.number? with
  | none => throw (.incomparable ">" s.cacheSize.kind "int")
  | some n => require (n.sign? = some 1) .positiveCache
  require s.expressionColumn.isGiven .namedColumn
  return "Configuration validated successfully!\n"

end Settings

end Reckoner
