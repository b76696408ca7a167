import Reckoner.Batch
import Reckoner.Proofs.Agreement
/-!
# Operations on a session

`Operation` lists what a caller may ask of a session, and `Session.run` performs one after another.

`Faithful` is the invariant of all of them: every result in the cache is the value of its expression under
its own mode and flag. Whatever a session evaluates goes one of three ways (`Evaluates`): the result is in
the cache, it is computed and stored, or there is none. So an evaluation comes to the same with the cache
as without it (`evaluate_eq_result`).
-/

namespace Reckoner

/-! ## Operations -/

inductive Operation where
  | evaluate (expression : String)
  | submit (expression : String)
  | batch (expressions : List String)
  | setMode (mode : Datum)
  | toggleMode
  | setPartially (partially : Bool)
  | clearCache
  | press (key display : Datum)
  | addToMemory (given : Datum)
  | subtractFromMemory (given : Datum)
  | clearMemory
  | readMemory
  | recallEntry (position : Datum)
  | readHistory
  | clearHistory

/-- What a caller gets back. -/
inductive Answer where
  | done
  | value (x : Double)
  | submission (s : Submission)
  | rows (rows : List BatchRow)
  | mode (mode : AngleMode)
  | pressed (recalled : Option Double)
  | expression (text : String)
  | entries (entries : List (String × Double))

namespace Session

/-- The register changed by a number from a caller; the new content is the answer. -/
def changeMemory (s : Session) (change : Memory → Double → Memory) (given : Datum) :
    Except Fault Answer × Session :=
  match given.toDouble? with
  | .ok x => (.ok (.value (change s.memory x).value), { s with memory := change s.memory x })
  | .error f => (.error f, s)

def perform (s : Session) : Operation → Except Fault Answer × Session
  | .evaluate expression => ((s.evaluate expression).1.map .value, (s.evaluate expression).2)
  | .submit expression => ((s.submit expression).1.map .submission, (s.submit expression).2)
  | .batch expressions =>
    let (rows, s, _) := Batch.evaluate s (expressions.map .text)
    (rows.map .rows, s)
  | .setMode mode => match AngleMode.ofDatum mode with
    | .ok mode => (.ok (.mode mode), (s.setMode mode).1)
    | .error f => (.error f, s)
  | .toggleMode => (.ok (.mode s.mode.toggled), s.toggleMode.1)
  | .setPartially partially => (.ok .done, { s with partially := .bool partially })
  | .clearCache => (.ok .done, s.clearCache.1)
  | .press key display => ((s.press key display).1.map .pressed, (s.press key display).2)
  | .addToMemory given => s.changeMemory .add given
  | .subtractFromMemory given => s.changeMemory .subtract given
  | .clearMemory => (.ok (.value Memory.empty.value), { s with memory := .empty })
  | .readMemory => (.ok (.value s.memory.value), s)
  | .recallEntry position => ((s.history.expressionAtDatum position).map .expression, s)
  | .readHistory => (.ok (.entries s.history.entries), s)
  | .clearHistory => (.ok .done, s.clearHistory.1)

def after (s : Session) (op : Operation) : Session := (s.perform op).2

def run (s : Session) (ops : List Operation) : Session := ops.foldl after s

theorem run_concat (s : Session) (ops : List Operation) (op : Operation) :
    s.run (ops ++ [op]) = (s.run ops).after op := by
  simp [run]

section
variable {α : Type} (note : Session → α → Operation → α) (blank : α)

/-- What is noted along a run, where each operation is noted in view of the session before it. -/
def noted (s : Session) (ops : List Operation) : α :=
  (ops.foldl (fun p op => (p.1.after op, note p.1 p.2 op)) (s, blank)).2

theorem foldl_note_fst (s : Session) (log : α) (ops : List Operation) :
    (ops.foldl (fun p op => (p.1.after op, note p.1 p.2 op)) (s, log)).1 = s.run ops := by
  induction ops generalizing s log with
  | nil => rfl
  | cons op ops ih => exact ih (s.after op) (note s log op)

theorem noted_concat (s : Session) (ops : List Operation) (op : Operation) :
    noted note blank s (ops ++ [op]) = note (s.run ops) (noted note blank s ops) op := by
  rw [noted, List.foldl_append, List.foldl_cons, List.foldl_nil, foldl_note_fst, noted]

end

end Session

/-! ## Queries and capacities -/

/-- An expression with the settings that its value depends on. -/
structure Query where
  expression : String
  mode : AngleMode
  partially : Bool
  deriving DecidableEq

namespace Query

/-- What comes of the expression by itself. -/
def result (q : Query) : Except Fault Double := evaluate q.mode q.partially q.expression

def succeeds (q : Query) : Bool := q.result.isOk

def key (q : Query) : CacheKey := ⟨q.expression, q.mode, .int q.partially.toInt⟩

theorem key_injective : Function.Injective key := by
  rintro ⟨e, m, b⟩ ⟨e', m', b'⟩ h
  simp only [key, CacheKey.mk.injEq, Datum.Identity.int.injEq] at h
  obtain ⟨rfl, rfl, hb⟩ := h
  cases b <;> cases b' <;> simp_all

/-- A query has a value, or its expression has an error. -/
theorem result_cases (q : Query) :
    (∃ x, q.result = .ok x) ∨ ∃ e, q.result = .error (.evaluation e) := by
  cases h : q.result with
  | ok x => exact .inl ⟨x, rfl⟩
  | error f =>
    obtain ⟨e, rfl, -⟩ := fault_of_evaluate h
    exact .inr ⟨e, rfl⟩

/-- Why the expression has no value. -/
def error? (q : Query) : Option EvaluationError :=
  match q.result with
  | .error (.evaluation e) => some e
  | _ => none

theorem error?_eq_some_iff {q : Query} {e : EvaluationError} :
    q.error? = some e ↔ q.result = .error (.evaluation e) := by
  unfold error?
  rcases q.result_cases with ⟨x, h⟩ | ⟨e', h⟩
  · simp [h]
  · simp [h]

/-- The row of the expression in a table of results; what has no value stands as `nan`. -/
def row (q : Query) : BatchRow := ⟨.text q.expression, q.result.toOption.getD .nan, q.error?⟩

theorem row_ok {q : Query} {x : Double} (h : q.result = .ok x) : q.row = ⟨.text q.expression, x, none⟩ := by
  rw [row, error?, h]
  rfl

theorem row_error {q : Query} {e : EvaluationError} (h : q.result = .error (.evaluation e)) :
    q.row = ⟨.text q.expression, .nan, some e⟩ := by
  rw [row, error?_eq_some_iff.2 h, h]
  rfl

end Query

/-- A cache of this capacity never has to shrink below nothing. -/
def Capacity.Roomy (c : Capacity) : Prop := c = .bound .unbounded ∨ ∃ n : Nat, c = .bound (.atMost n)

/-- A number from zero on, an infinite one too. -/
def Datum.IsNonnegative (d : Datum) : Prop := ∃ k i, d.number? = some k ∧ k.sign? = some i ∧ 0 ≤ i

/-- The floor of a number from zero on is one too. -/
theorem Double.floor_nonneg {x : Double} {i n : Int} (hplace : x.place? = some i) (h : 0 ≤ i)
    (hfloor : x.floor? = some n) : 0 ≤ n := by
  cases x with
  | nan => cases hplace
  | infinite negative => cases hfloor
  | finite negative rank =>
    obtain rfl := Option.some.inj hplace
    obtain rfl := Option.some.inj hfloor
    have hunits : 0 ≤ signed negative (unitsOfRank rank) := by
      cases negative with
      | false => simp [signed]
      | true =>
        have hrank : rank.val = 0 := by simp only [signed, if_true] at h; omega
        simp [signed, hrank, unitsOfRank, binade]
    exact Int.fdiv_nonneg hunits (Int.natCast_nonneg _)

theorem Capacity.roomy_ofDatum {size : Datum} (h : size.IsNonnegative) : (Capacity.ofDatum size).Roomy := by
  obtain ⟨k, i, hk, hi, h0⟩ := h
  have hcapacity : Capacity.ofDatum size = .bound k.bound := by simp [Capacity.ofDatum, hk]
  rw [hcapacity]
  cases k with
  | int n =>
    obtain rfl := Option.some.inj hi
    obtain ⟨m, rfl⟩ := Int.eq_ofNat_of_zero_le (Int.sign_nonneg_iff.1 h0)
    exact .inr ⟨m, rfl⟩
  | float x =>
    obtain ⟨j, hj, rfl⟩ := Option.map_eq_some_iff.1 hi
    have hj0 : 0 ≤ j := Int.sign_nonneg_iff.1 h0
    cases hfloor : x.floor? with
    | some n =>
      obtain ⟨m, rfl⟩ := Int.eq_ofNat_of_zero_le (Double.floor_nonneg hj hj0 hfloor)
      exact .inr ⟨m, by simp [Datum.Number.bound, hfloor]⟩
    | none =>
      refine .inl ?_
      cases x with
      | nan => cases hj
      | infinite negative =>
        cases negative with
        | false => rfl
        | true =>
          obtain rfl := Option.some.inj hj
          simp [Double.signed, Double.finiteCount, Double.binade] at hj0
      | finite negative rank => cases hfloor

/-! ## What an evaluation does -/

namespace Cache

variable {κ ν : Type}

/-- A roomy capacity keeps some of the newest entries. -/
theorem fit_roomy {capacity : Capacity} (h : capacity.Roomy) (entries : List (κ × ν)) :
    ∃ n, fit capacity entries = (.ok (), entries.drop n) := by
  rcases h with rfl | ⟨n, rfl⟩
  · exact ⟨0, by simp [fit]⟩
  · exact ⟨entries.length - n, rfl⟩

variable [DecidableEq κ]

theorem find?_eq_some {entries : List (κ × ν)} {key : κ} {v : ν} (h : find? entries key = some v) :
    (key, v) ∈ entries := by
  obtain ⟨⟨k, w⟩, hfind, rfl⟩ := Option.map_eq_some_iff.1 h
  have hk : k = key := by simpa using List.find?_some hfind
  subst hk
  exact List.mem_of_find?_eq_some hfind

theorem find?_eq_none {entries : List (κ × ν)} {key : κ} (h : find? entries key = none) :
    key ∉ entries.map (·.1) := by
  intro hkey
  obtain ⟨entry, hentry, rfl⟩ := List.mem_map.1 hkey
  have := List.find?_eq_none.1 (Option.map_eq_none_iff.1 h) entry hentry
  simp at this

theorem mem_of_mem_touch {entries : List (κ × ν)} {key : κ} {entry : κ × ν} (h : entry ∈ touch entries key) :
    entry ∈ entries := by
  rcases List.mem_append.1 h with h | h
  · exact (List.mem_filter.1 h).1
  · exact (List.mem_filter.1 h).1

end Cache

namespace Session

/-- An expression under the settings of the session, the flag as it counts. -/
def query (s : Session) (expression : String) : Query := ⟨expression, s.mode, s.partially.isGiven⟩

theorem query_eq {s : Session} {b : Bool} (h : s.partially = .bool b) (expression : String) :
    s.query expression = ⟨expression, s.mode, b⟩ := by
  rw [query, h]
  rfl

def keys (s : Session) : List CacheKey := s.cache.map (·.1)

/-- The flag is a truth value, the cache has room, and every result in it is that of its query. -/
structure Faithful (s : Session) : Prop where
  boolean : ∃ b, s.partially = .bool b
  room : s.capacity.Roomy
  cached : ∀ key r, (key, r) ∈ s.cache → ∃ q : Query, key = q.key ∧ q.result = .ok r.value

section
variable {s : Session}

/-- The three ways of an evaluation: what comes out, and the session after it. -/
inductive Evaluates (s : Session) (q : Query) : Except Fault Double → Session → Prop
  | hit {x : Double} (result : q.result = .ok x) (known : q.key ∈ s.keys) :
      Evaluates s q (.ok x) { s with cache := Cache.touch s.cache q.key, hits := s.hits + 1 }
  | stored {x : Double} (result : q.result = .ok x) (unknown : q.key ∉ s.keys) :
      Evaluates s q (.ok x)
        { s with
          cache := (Cache.fit s.capacity (s.cache ++ [(q.key, ⟨x, s.partially⟩)])).2
          misses := s.misses + 1 }
  | failed {e : EvaluationError} (result : q.result = .error (.evaluation e)) (unknown : q.key ∉ s.keys) :
      Evaluates s q (.error (.evaluation e)) s.missed

/-- Under a truth value as its flag, every expression has a key. -/
theorem key_eq_of_boolean (h : ∃ b, s.partially = .bool b) (expression : String) :
    s.key expression = .ok (s.query expression).key := by
  obtain ⟨b, hb⟩ := h
  simp [key, query, Query.key, hb, Datum.identity, Datum.isGiven]

theorem Faithful.evaluates (hs : s.Faithful) (expression : String) :
    Evaluates s (s.query expression) (s.evaluate expression).1 (s.evaluate expression).2 := by
  unfold evaluate
  rw [key_eq_of_boolean hs.boolean]
  dsimp only
  cases hfind : Cache.find? s.cache (s.query expression).key with
  | some r =>
    have hmem := Cache.find?_eq_some hfind
    obtain ⟨q, hkey, hresult⟩ := hs.cached _ _ hmem
    rw [← Query.key_injective hkey] at hresult
    exact .hit hresult (List.mem_map_of_mem hmem)
  | none =>
    have hunknown : (s.query expression).key ∉ s.keys := Cache.find?_eq_none hfind
    have hanew : Reckoner.evaluate s.missed.mode s.missed.partially.isGiven
        (s.query expression).key.expression = (s.query expression).result := rfl
    dsimp only
    unfold evaluateAnew
    rw [hanew]
    rcases (s.query expression).result_cases with ⟨x, hresult⟩ | ⟨e, hresult⟩
    · obtain ⟨n, hfit⟩ := Cache.fit_roomy hs.room (s.cache ++ [((s.query expression).key, ⟨x, s.partially⟩)])
      have hstored := Evaluates.stored hresult hunknown
      rw [hresult]
      simp only [Cache.store, missed, hfit] at hstored ⊢
      exact hstored
    · rw [hresult]
      exact .failed hresult hunknown

theorem Faithful.evaluate (hs : s.Faithful) (expression : String) : (s.evaluate expression).2.Faithful := by
  have hev := hs.evaluates expression
  generalize s.query expression = q, (s.evaluate expression).1 = r, (s.evaluate expression).2 = s' at hev ⊢
  cases hev with
  | hit result known =>
    exact ⟨hs.boolean, hs.room, fun key r hr => hs.cached key r (Cache.mem_of_mem_touch hr)⟩
  | @stored x result unknown =>
    refine ⟨hs.boolean, hs.room, fun key r hr => ?_⟩
    obtain ⟨n, hfit⟩ := Cache.fit_roomy hs.room (s.cache ++ [(q.key, ⟨x, s.partially⟩)])
    rw [hfit] at hr
    rcases List.mem_append.1 (List.mem_of_mem_drop hr) with hr | hr
    · exact hs.cached key r hr
    · obtain ⟨rfl, rfl⟩ := Prod.mk.inj (List.mem_singleton.1 hr)
      exact ⟨q, rfl, result⟩
  | failed result unknown => exact ⟨hs.boolean, hs.room, hs.cached⟩

/-- An evaluation comes to the same with the cache as without it. -/
theorem Faithful.evaluate_eq_result (hs : s.Faithful) (expression : String) :
    (s.evaluate expression).1 = (s.query expression).result := by
  have hev := hs.evaluates expression
  generalize s.query expression = q, (s.evaluate expression).1 = r, (s.evaluate expression).2 = s' at hev ⊢
  cases hev with
  | hit result known => exact result.symm
  | stored result unknown => exact result.symm
  | failed result unknown => exact result.symm

/-- All is the same but the cache and its counts. -/
structure Keeps (s s' : Session) : Prop where
  mode : s'.mode = s.mode
  partially : s'.partially = s.partially
  history : s'.history = s.history
  memory : s'.memory = s.memory
  capacity : s'.capacity = s.capacity

theorem Keeps.refl (s : Session) : s.Keeps s := ⟨rfl, rfl, rfl, rfl, rfl⟩

theorem Keeps.trans {s' s'' : Session} (h : s.Keeps s') (h' : s'.Keeps s'') : s.Keeps s'' :=
  ⟨h'.mode.trans h.mode, h'.partially.trans h.partially, h'.history.trans h.history,
    h'.memory.trans h.memory, h'.capacity.trans h.capacity⟩

/-- What is asked depends on the settings only. -/
theorem query_congr {s' : Session} (hmode : s'.mode = s.mode) (hflag : s'.partially = s.partially)
    (expression : String) : s'.query expression = s.query expression := by
  rw [query, query, hmode, hflag]

theorem Keeps.query {s' : Session} (h : s.Keeps s') (expression : String) :
    s'.query expression = s.query expression :=
  query_congr h.mode h.partially expression

theorem Faithful.keeps_evaluate (hs : s.Faithful) (expression : String) :
    s.Keeps (s.evaluate expression).2 := by
  have hev := hs.evaluates expression
  generalize s.query expression = q, (s.evaluate expression).1 = r, (s.evaluate expression).2 = s' at hev ⊢
  cases hev with
  | hit result known => exact ⟨rfl, rfl, rfl, rfl, rfl⟩
  | stored result unknown => exact ⟨rfl, rfl, rfl, rfl, rfl⟩
  | failed result unknown => exact ⟨rfl, rfl, rfl, rfl, rfl⟩

/-! ## Submissions and batches -/

/-- A submission answers with the value and enters it, or with the error. -/
theorem Faithful.submits (hs : s.Faithful) (expression : String) :
    (∃ x, (s.query expression).result = .ok x ∧ s.submit expression = (.ok ⟨expression, .ok x⟩,
      { (s.evaluate expression).2 with history := s.history.add expression x })) ∨
    ∃ e, (s.query expression).result = .error (.evaluation e) ∧
      s.submit expression = (.ok ⟨expression, .error e⟩, (s.evaluate expression).2) := by
  have hvalue := hs.evaluate_eq_result expression
  have hhistory := (hs.keeps_evaluate expression).history
  unfold submit
  rcases hev : s.evaluate expression with ⟨r, s'⟩
  rw [hev] at hvalue hhistory
  obtain rfl : r = (s.query expression).result := hvalue
  rcases (s.query expression).result_cases with ⟨x, hresult⟩ | ⟨e, hresult⟩
  · refine .inl ⟨x, hresult, ?_⟩
    rw [hresult, ← hhistory]
  · refine .inr ⟨e, hresult, ?_⟩
    rw [hresult]

/-- The session after some evaluations. -/
def evaluateAll (s : Session) (expressions : List String) : Session :=
  expressions.foldl (fun s expression => (s.evaluate expression).2) s

theorem Faithful.evaluateAll (hs : s.Faithful) (expressions : List String) :
    (s.evaluateAll expressions).Faithful ∧ s.Keeps (s.evaluateAll expressions) := by
  induction expressions generalizing s with
  | nil => exact ⟨hs, .refl s⟩
  | cons e es ih =>
    obtain ⟨hfaithful, hkeeps⟩ := ih (hs.evaluate e)
    exact ⟨hfaithful, (hs.keeps_evaluate e).trans hkeeps⟩

theorem Faithful.evaluateRow (hs : s.Faithful) (expression : String) :
    Batch.evaluateRow s (.text expression) = (.ok (s.query expression).row, (s.evaluate expression).2) := by
  have hvalue := hs.evaluate_eq_result expression
  have hdata : s.evaluateData (.text expression) = s.evaluate expression := rfl
  unfold Batch.evaluateRow
  rw [hdata]
  rcases hev : s.evaluate expression with ⟨r, s'⟩
  rw [hev] at hvalue
  obtain rfl : r = (s.query expression).result := hvalue
  rcases (s.query expression).result_cases with ⟨x, hresult⟩ | ⟨e, hresult⟩
  · rw [Query.row_ok hresult, hresult]; rfl
  · rw [Query.row_error hresult, hresult]; rfl

/-- The rows of texts in a batch, each as it is by itself. -/
def rows (s : Session) (expressions : List String) : List BatchRow :=
  expressions.map fun expression => (s.query expression).row

theorem Keeps.rows {s' : Session} (h : s.Keeps s') (expressions : List String) :
    s'.rows expressions = s.rows expressions :=
  List.map_congr_left fun expression _ => congrArg Query.row (h.query expression)

theorem Faithful.evaluateRows (hs : s.Faithful) (expressions : List String) :
    Batch.evaluateRows s (expressions.map .text) =
      (.ok (s.rows expressions), s.evaluateAll expressions, (s.rows expressions).flatMap Batch.rowLog) := by
  induction expressions generalizing s with
  | nil => rfl
  | cons e es ih =>
    have hrest := ih (hs.evaluate e)
    rw [(hs.keeps_evaluate e).rows] at hrest
    simp only [List.map_cons, Batch.evaluateRows, hs.evaluateRow, hrest]
    rfl

/-- A batch of texts gives the rows that the expressions have by themselves, and leaves the session that
evaluating them one by one leaves. -/
theorem Faithful.batch (hs : s.Faithful) (expressions : List String) :
    ∃ log, Batch.evaluate s (expressions.map .text) =
      (.ok (s.rows expressions), s.evaluateAll expressions, log) := by
  simp only [Batch.evaluate, hs.evaluateRows, Prod.mk.injEq, true_and, exists_eq']

end

/-! ## What an operation does -/

end Session

/-- Neither evaluates an expression nor clears what is remembered. -/
def Operation.IsQuiet : Operation → Prop
  | evaluate _ | submit _ | batch _ | clearCache | clearHistory => False
  | _ => True

namespace Session

/-- What an operation leaves of a session. -/
inductive Effect (s : Session) : Operation → Session → Prop
  | evaluated (expression : String) : Effect s (.evaluate expression) (s.evaluate expression).2
  | entered {expression : String} {x : Double} (result : (s.query expression).result = .ok x) :
      Effect s (.submit expression)
        { (s.evaluate expression).2 with history := s.history.add expression x }
  | refused {expression : String} {e : EvaluationError}
      (result : (s.query expression).result = .error (.evaluation e)) :
      Effect s (.submit expression) (s.evaluate expression).2
  | evaluatedAll (expressions : List String) : Effect s (.batch expressions) (s.evaluateAll expressions)
  | cacheCleared : Effect s .clearCache { s with cache := [], hits := 0, misses := 0 }
  | historyCleared : Effect s .clearHistory { s with history := s.history.clear }
  | quiet {op : Operation} (isQuiet : op.IsQuiet) (mode : AngleMode) {partially : Datum}
      (boolean : ∃ b, partially = .bool b) (memory : Memory) :
      Effect s op { s with mode, partially, memory }

theorem Faithful.effect {s : Session} (hs : s.Faithful) (op : Operation) : s.Effect op (s.after op) := by
  have memory : ∀ {op : Operation} (m : Memory), op.IsQuiet → s.Effect op { s with memory := m } :=
    fun m hop => .quiet hop s.mode hs.boolean m
  have same : ∀ {op : Operation}, op.IsQuiet → s.Effect op s := fun hop => memory s.memory hop
  cases op with
  | evaluate expression => exact .evaluated expression
  | submit expression =>
    have hafter : s.after (.submit expression) = (s.submit expression).2 := rfl
    rw [hafter]
    rcases hs.submits expression with ⟨x, hresult, h⟩ | ⟨e, hresult, h⟩
    · rw [h]; exact .entered hresult
    · rw [h]; exact .refused hresult
  | batch expressions =>
    have hafter : s.after (.batch expressions) = (Batch.evaluate s (expressions.map .text)).2.1 := rfl
    obtain ⟨log, hbatch⟩ := hs.batch expressions
    rw [hafter, hbatch]
    exact .evaluatedAll expressions
  | setMode mode =>
    have hop : Operation.IsQuiet (.setMode mode) := trivial
    simp only [after, perform]
    split
    · next m hm => exact .quiet hop m hs.boolean s.memory
    · exact same trivial
  | toggleMode =>
    have hop : Operation.IsQuiet .toggleMode := trivial
    exact .quiet hop s.mode.toggled hs.boolean s.memory
  | setPartially partially =>
    have hop : Operation.IsQuiet (.setPartially partially) := trivial
    exact .quiet hop s.mode ⟨partially, rfl⟩ s.memory
  | clearCache => exact .cacheCleared
  | press key display =>
    simp only [after, perform, press]
    split
    · exact memory _ trivial
    · exact same trivial
  | addToMemory given | subtractFromMemory given =>
    simp only [after, perform, changeMemory]
    split
    · exact memory _ trivial
    · exact same trivial
  | clearMemory => exact memory .empty trivial
  | readMemory | recallEntry | readHistory => exact same trivial
  | clearHistory => exact .historyCleared

theorem Faithful.after {s : Session} (hs : s.Faithful) (op : Operation) : (s.after op).Faithful := by
  have heffect := hs.effect op
  generalize s.after op = s' at heffect ⊢
  cases heffect with
  | evaluated expression | refused => exact hs.evaluate _
  | @entered expression x result =>
    have hev := hs.evaluate expression
    exact ⟨hev.boolean, hev.room, hev.cached⟩
  | evaluatedAll expressions => exact (hs.evaluateAll expressions).1
  | cacheCleared => exact ⟨hs.boolean, hs.room, by simp⟩
  | historyCleared => exact ⟨hs.boolean, hs.room, hs.cached⟩
  | quiet isQuiet mode boolean memory => exact ⟨boolean, hs.room, hs.cached⟩

/-! ## Runs -/

theorem Faithful.run {s : Session} (hs : s.Faithful) (ops : List Operation) : (s.run ops).Faithful :=
  List.foldlRecOn ops Session.after hs fun _ h op _ => h.after op

/-- What a new session consists of. -/
theorem create_eq_ok {mode historySize cacheSize partially : Datum} {s : Session}
    (h : create mode historySize cacheSize partially = .ok s) :
    ∃ m history, AngleMode.ofDatum mode = .ok m ∧ History.create historySize = .ok history ∧
      s = ⟨m, partially, history, .empty, .ofDatum cacheSize, [], 0, 0⟩ := by
  unfold create at h
  cases hm : AngleMode.ofDatum mode with
  | error f => rw [hm] at h; cases h
  | ok m =>
    cases hh : History.create (α := String) historySize with
    | error f => rw [hm, hh] at h; cases h
    | ok history =>
      rw [hm, hh] at h
      cases h
      exact ⟨m, history, rfl, rfl, rfl⟩

theorem faithful_create {mode historySize cacheSize : Datum} {partially : Bool} {s : Session}
    (h : create mode historySize cacheSize (.bool partially) = .ok s) (hsize : cacheSize.IsNonnegative) :
    s.Faithful := by
  obtain ⟨m, history, -, -, rfl⟩ := create_eq_ok h
  exact ⟨⟨partially, rfl⟩, Capacity.roomy_ofDatum hsize, by simp⟩

/-- After any operations a session evaluates an expression to what it comes to by itself, under the
settings of the moment, and a submission answers with just that. -/
theorem evaluate_after_run {mode historySize cacheSize : Datum} {partially : Bool} {s₀ : Session}
    (h : create mode historySize cacheSize (.bool partially) = .ok s₀) (hsize : cacheSize.IsNonnegative)
    (ops : List Operation) (expression : String) :
    let s := s₀.run ops
    ∃ b, s.partially = .bool b ∧
      ((∃ x, Reckoner.evaluate s.mode b expression = .ok x ∧ (s.evaluate expression).1 = .ok x ∧
        (s.submit expression).1 = .ok ⟨expression, .ok x⟩) ∨
      ∃ e, Reckoner.evaluate s.mode b expression = .error (.evaluation e) ∧
        (s.evaluate expression).1 = .error (.evaluation e) ∧
        (s.submit expression).1 = .ok ⟨expression, .error e⟩) := by
  intro s
  have hs : s.Faithful := (faithful_create h hsize).run ops
  obtain ⟨b, hb⟩ := hs.boolean
  have hquery : (s.query expression).result = Reckoner.evaluate s.mode b expression := by
    simp [query, Query.result, hb, Datum.isGiven]
  have hvalue := hs.evaluate_eq_result expression
  refine ⟨b, hb, ?_⟩
  rw [hvalue, ← hquery]
  rcases hs.submits expression with ⟨x, hresult, hsubmit⟩ | ⟨e, hresult, hsubmit⟩
  · exact .inl ⟨x, hresult, hresult, by rw [hsubmit]⟩
  · exact .inr ⟨e, hresult, hresult, by rw [hsubmit]⟩

/-- A result that is asked for again after it went from the cache, in another mode and with another flag. -/
theorem evaluate_after_run_evicted :
    ∃ s₀, create (.text "radian") (.int 2) (.int 1) (.bool false) = .ok s₀ ∧
      Datum.IsNonnegative (.int 1) ∧
      let s := s₀.run [.evaluate "1+1", .submit "2", .evaluate "1+1", .toggleMode, .setPartially true]
      s.partially = .bool true ∧
        ((∃ x, Reckoner.evaluate s.mode true "1+1" = .ok x ∧ (s.evaluate "1+1").1 = .ok x ∧
          (s.submit "1+1").1 = .ok ⟨"1+1", .ok x⟩) ∨
        ∃ e, Reckoner.evaluate s.mode true "1+1" = .error (.evaluation e) ∧
          (s.evaluate "1+1").1 = .error (.evaluation e) ∧ (s.submit "1+1").1 = .ok ⟨"1+1", .error e⟩) := by
  let s₀ : Session := ⟨.radian, .bool false, .ofBound (.atMost 2), .empty, .bound (.atMost 1), [], 0, 0⟩
  have hcreate : create (.text "radian") (.int 2) (.int 1) (.bool false) = .ok s₀ := rfl
  have hsize : Datum.IsNonnegative (.int 1) := ⟨.int 1, 1, rfl, rfl, by decide⟩
  obtain ⟨b, hb, h⟩ := evaluate_after_run hcreate hsize
    [.evaluate "1+1", .submit "2", .evaluate "1+1", .toggleMode, .setPartially true] "1+1"
  obtain rfl : true = b := Datum.bool.inj hb
  exact ⟨s₀, hcreate, hsize, rfl, h⟩

end Session

end Reckoner
