import Reckoner.Cache
import Reckoner.Evaluation
import Reckoner.History
import Reckoner.Log
import Reckoner.Memory
/-!
# Sessions

A session evaluates expressions under its mode and remembers: results in a cache under the expression,
the mode and the flag for partial evaluation; submitted expressions in a history; one number in a memory
register. An operation that fails leaves the session as it was, but for the count of misses, unless it
is the cache itself that fails.

The flag is kept as a caller set it: whether it counts as given decides on partial evaluation, and two
flags that are one value are one flag to the cache.
-/

namespace Reckoner

/-- What a result depends on. -/
structure CacheKey where
  expression : String
  mode : AngleMode
  partially : Datum.Identity
  deriving DecidableEq

/-- A result, with the flag as it was when the result was stored. -/
structure CachedResult where
  value : Double
  partially : Datum

structure Session where
  mode : AngleMode
  partially : Datum
  history : History String
  memory : Memory
  capacity : Capacity
  cache : List (CacheKey × CachedResult)
  hits : Nat
  misses : Nat

/-- An expression that was submitted, with its value or why it has none. -/
structure Submission where
  expression : String
  outcome : Except EvaluationError Double

def Submission.log (s : Submission) : List LogEvent :=
  match s.outcome with
  | .ok _ => []
  | .error e => [.submissionFailed s.expression e]

namespace Session

/-- A new session from a caller's mode, history size, cache size and flag. -/
def create (mode historySize cacheSize partially : Datum) : Except Fault Session := do
  let mode ← AngleMode.ofDatum mode
  let history ← History.create historySize
  return {
    mode, partially, history
    memory := .empty
    capacity := .ofDatum cacheSize
    cache := []
    hits := 0
    misses := 0 }

/-- The key of an expression; a flag without an identity leaves no key to look up. -/
def key (s : Session) (expression : String) : Except Fault CacheKey :=
  (CacheKey.mk expression s.mode ·) <$> s.partially.identity

/-! ## Evaluation -/

def missed (s : Session) : Session := { s with misses := s.misses + 1 }

/-- The value of an expression that is not in the cache, stored under its key. -/
def evaluateAnew (s : Session) (key : CacheKey) : Except Fault Double × Session :=
  match Reckoner.evaluate s.mode s.partially.isGiven key.expression with
  | .error f => (.error f, s)
  | .ok x =>
    let (stored, cache) := Cache.store s.capacity s.cache key ⟨x, s.partially⟩
    (stored.map fun _ => x, { s with cache })

/-- The value of an expression, from the cache if it is there. -/
def evaluate (s : Session) (expression : String) : Except Fault Double × Session :=
  match s.key expression with
  | .error f => (.error f, s)
  | .ok key => match Cache.find? s.cache key with
    | some r => (.ok r.value, { s with cache := Cache.touch s.cache key, hits := s.hits + 1 })
    | none => s.missed.evaluateAnew key

/-- The refusal of a value that is no expression: a miss, unless there is no key to look up. -/
def refuse (s : Session) (given : Datum) (f : Fault) : Fault × Session :=
  match given.identity, s.partially.identity with
  | .error f, _ | .ok _, .error f => (f, s)
  | .ok _, .ok _ => (f, s.missed)

def evaluateData (s : Session) (expression : Datum) : Except Fault Double × Session :=
  match expression.text? with
  | .ok text => s.evaluate text
  | .error f =>
    let (f, s) := s.refuse expression f
    (.error f, s)

/-- Evaluates and enters a success into the history; only an expression without a value counts as an
answer, every other fault goes through. -/
def submit (s : Session) (expression : String) : Except Fault Submission × Session :=
  match s.evaluate expression with
  | (.ok x, s) => (.ok ⟨expression, .ok x⟩, { s with history := s.history.add expression x })
  | (.error (.evaluation e), s) => (.ok ⟨expression, .error e⟩, s)
  | (.error f, s) => (.error f, s)

def submitData (s : Session) (expression : Datum) : Except Fault Submission × Session :=
  match expression.text? with
  | .ok text => s.submit text
  | .error f =>
    let (f, s) := s.refuse expression f
    (.error f, s)

/-! ## Settings and registers -/

def setMode (s : Session) (mode : AngleMode) : Session × List LogEvent :=
  ({ s with mode }, [.modeSet mode])

def toggleMode (s : Session) : Session × List LogEvent := s.setMode s.mode.toggled

def clearCache (s : Session) : Session × List LogEvent :=
  ({ s with cache := [], hits := 0, misses := 0 }, [.cacheCleared s.hits s.misses])

def clearHistory (s : Session) : Session × List LogEvent :=
  ({ s with history := s.history.clear }, [.historyCleared])

/-- A memory key from a caller while a display is shown. -/
def press (s : Session) (key display : Datum) : Except Fault (Option Double) × Session :=
  match s.memory.pressData key display with
  | .ok (memory, recalled) => (.ok recalled, { s with memory })
  | .error f => (.error f, s)

end Session

end Reckoner
