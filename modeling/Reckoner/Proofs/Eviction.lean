import Reckoner.Proofs.Operations
/-!
# Eviction

To fit a cache is to take entries from its front while it holds more than its limit allows (`evict`,
`fit_eq_evict`). From zero on that ends with the newest entries. Below zero even an empty cache holds too
much, and the loop comes to take an entry where there is none.

`Limited` is the invariant of a session whose limit is a whole number, whatever its sign. A submission to
such a session answers with a value or with an error of the expression, except below zero, where every
expression that has a value fails on the empty cache (`submit_after_run`).
-/

namespace Reckoner

/-! ## The loop -/

namespace Cache
variable {κ ν : Type} {limit : Int} {entries : List (κ × ν)}

/-- Takes the entry used least recently while there are more than the limit allows. -/
def evict (limit : Int) : List (κ × ν) → Except Fault Unit × List (κ × ν)
  | [] => if ([] : List (κ × ν)).length > limit then (.error .emptyCache, []) else (.ok (), [])
  | entry :: rest =>
    if (entry :: rest).length > limit then evict limit rest else (.ok (), entry :: rest)

/-- From zero on the newest entries stay, and no entry is missed. -/
theorem evict_of_nonneg (h : 0 ≤ limit) :
    evict limit entries = (.ok (), entries.drop (entries.length - limit.toNat)) := by
  induction entries with
  | nil => simp [evict, h]
  | cons entry rest ih =>
    unfold evict
    by_cases hlength : ((entry :: rest).length : Int) > limit
    · have hdrop : (entry :: rest).length - limit.toNat = rest.length - limit.toNat + 1 := by
        rw [List.length_cons] at hlength ⊢
        omega
      rw [if_pos hlength, ih, hdrop, List.drop_succ_cons]
    · have hdrop : (entry :: rest).length - limit.toNat = 0 := by omega
      rw [if_neg hlength, hdrop, List.drop_zero]

/-- Below zero all entries go, and then one more is asked for. -/
theorem evict_of_neg (h : limit < 0) : evict limit entries = (.error .emptyCache, []) := by
  induction entries with
  | nil => simp [evict, h]
  | cons entry rest ih =>
    have hlength : ((entry :: rest).length : Int) > limit := by omega
    rw [evict, if_pos hlength, ih]

theorem length_evict_le : (evict limit entries).2.length ≤ limit.toNat := by
  by_cases h : 0 ≤ limit
  · rw [evict_of_nonneg h, List.length_drop]
    omega
  · rw [evict_of_neg (by omega)]
    simp

/-- Fitting a cache under a limit is the loop. -/
theorem fit_eq_evict : fit (.bound (.atMost limit)) entries = evict limit entries := by
  cases limit with
  | ofNat n => exact (evict_of_nonneg (Int.natCast_nonneg n)).symm
  | negSucc n => exact (evict_of_neg (Int.negSucc_lt_zero n)).symm

variable [DecidableEq κ]

theorem length_touch (entries : List (κ × ν)) (key : κ) : (touch entries key).length = entries.length := by
  have hsplit := (List.filter_append_perm (fun entry => decide (entry.1 = key)) entries).length_eq
  simp only [touch, List.length_append, ne_eq, decide_not] at hsplit ⊢
  omega

end Cache

/-! ## Sessions under a limit -/

namespace Session

/-- The flag is a truth value, the limit of the cache a whole number, and the cache holds no more. -/
structure Limited (limit : Int) (s : Session) : Prop where
  boolean : ∃ b, s.partially = .bool b
  capacity : s.capacity = .bound (.atMost limit)
  length_le : s.cache.length ≤ limit.toNat

variable {limit : Int} {s : Session}

theorem Limited.missed (hs : s.Limited limit) : s.missed.Limited limit :=
  ⟨hs.boolean, hs.capacity, hs.length_le⟩

/-- What an evaluation under a limit comes to: a value, the error of the expression, or, below zero, the
fault of the cache in place of a value. -/
inductive Yields (limit : Int) (q : Query) : Except Fault Double → Prop
  | value (x : Double) (nonneg : 0 ≤ limit) : Yields limit q (.ok x)
  | failure {e : EvaluationError} (result : q.result = .error (.evaluation e)) :
      Yields limit q (.error (.evaluation e))
  | emptied {x : Double} (neg : limit < 0) (result : q.result = .ok x) : Yields limit q (.error .emptyCache)

theorem Limited.evaluateAnew (hs : s.Limited limit) (q : Query) (hmode : q.mode = s.mode)
    (hflag : q.partially = s.partially.isGiven) :
    Yields limit q (s.evaluateAnew q.key).1 ∧ (s.evaluateAnew q.key).2.Limited limit := by
  have hresult : Reckoner.evaluate s.mode s.partially.isGiven q.key.expression = q.result := by
    rw [← hmode, ← hflag]
    rfl
  unfold Session.evaluateAnew
  rw [hresult]
  rcases q.result_cases with ⟨x, hx⟩ | ⟨e, he⟩
  · have hstore : Cache.store s.capacity s.cache q.key ⟨x, s.partially⟩ =
        Cache.evict limit (s.cache ++ [(q.key, ⟨x, s.partially⟩)]) := by
      rw [Cache.store, hs.capacity, Cache.fit_eq_evict]
    rw [hx]
    dsimp only
    rw [hstore]
    refine ⟨?_, hs.boolean, hs.capacity, Cache.length_evict_le⟩
    by_cases h : 0 ≤ limit
    · rw [Cache.evict_of_nonneg h]
      exact .value x h
    · rw [Cache.evict_of_neg (by omega)]
      exact .emptied (by omega) hx
  · rw [he]
    exact ⟨.failure he, hs⟩

theorem Limited.evaluate (hs : s.Limited limit) (expression : String) :
    Yields limit (s.query expression) (s.evaluate expression).1 ∧
      (s.evaluate expression).2.Limited limit := by
  unfold Session.evaluate
  rw [key_eq_of_boolean hs.boolean]
  dsimp only
  cases hfind : Cache.find? s.cache (s.query expression).key with
  | some r =>
    -- What is found shows that the cache may hold an entry.
    have hpos := List.length_pos_of_mem (Cache.find?_eq_some hfind)
    have hlength := hs.length_le
    refine ⟨.value r.value (by omega), hs.boolean, hs.capacity, ?_⟩
    rwa [Cache.length_touch]
  | none => exact hs.missed.evaluateAnew (s.query expression) rfl rfl

/-- A submission answers, unless an expression with a value finds the limit below zero. -/
theorem Limited.submit (hs : s.Limited limit) (expression : String) :
    (s.submit expression).2.Limited limit ∧
      (((∃ outcome, (s.submit expression).1 = .ok ⟨expression, outcome⟩) ∧
          (0 ≤ limit ∨ ∃ e, (s.query expression).result = .error (.evaluation e))) ∨
        ((s.submit expression).1 = .error .emptyCache ∧
          limit < 0 ∧ ∃ x, (s.query expression).result = .ok x)) := by
  obtain ⟨hyields, hlimited⟩ := hs.evaluate expression
  unfold Session.submit
  rcases hev : s.evaluate expression with ⟨r, s'⟩
  rw [hev] at hyields hlimited
  cases hyields with
  | value x nonneg =>
    exact ⟨⟨hlimited.boolean, hlimited.capacity, hlimited.length_le⟩, .inl ⟨⟨_, rfl⟩, .inl nonneg⟩⟩
  | failure result => exact ⟨hlimited, .inl ⟨⟨_, rfl⟩, .inr ⟨_, result⟩⟩⟩
  | emptied neg result => exact ⟨hlimited, .inr ⟨rfl, neg, _, result⟩⟩

theorem Limited.evaluateRow (hs : s.Limited limit) (expression : String) :
    (Batch.evaluateRow s (.text expression)).2.Limited limit := by
  have hlimited := (hs.evaluate expression).2
  have hdata : s.evaluateData (.text expression) = s.evaluate expression := rfl
  unfold Batch.evaluateRow
  rw [hdata]
  rcases hev : s.evaluate expression with ⟨f | x, s'⟩
  · rw [hev] at hlimited
    cases f <;> exact hlimited
  · rwa [hev] at hlimited

theorem Limited.evaluateRows (hs : s.Limited limit) (expressions : List String) :
    (Batch.evaluateRows s (expressions.map .text)).2.1.Limited limit := by
  induction expressions generalizing s with
  | nil => exact hs
  | cons e es ih =>
    have hrow := hs.evaluateRow e
    rw [List.map_cons, Batch.evaluateRows]
    rcases hev : Batch.evaluateRow s (.text e) with ⟨_ | row, s'⟩
    · rwa [hev] at hrow
    · rw [hev] at hrow
      exact ih hrow

theorem Limited.batch (hs : s.Limited limit) (expressions : List String) :
    (Batch.evaluate s (expressions.map .text)).2.1.Limited limit := by
  have hrows := hs.evaluateRows expressions
  unfold Batch.evaluate
  rcases hev : Batch.evaluateRows s (expressions.map .text) with ⟨_ | rows, s', log⟩
  · rwa [hev] at hrows
  · rwa [hev] at hrows

theorem Limited.after (hs : s.Limited limit) (op : Operation) : (s.after op).Limited limit := by
  have changed : ∀ (mode : AngleMode) (memory : Memory) (history : History String),
      Limited limit { s with mode, memory, history } := fun _ _ _ =>
    ⟨hs.boolean, hs.capacity, hs.length_le⟩
  cases op with
  | evaluate expression => exact (hs.evaluate expression).2
  | submit expression => exact (hs.submit expression).1
  | batch expressions => exact hs.batch expressions
  | setMode mode =>
    simp only [Session.after, perform]
    split
    · exact changed _ s.memory s.history
    · exact hs
  | toggleMode => exact changed _ s.memory s.history
  | setPartially partially => exact ⟨⟨partially, rfl⟩, hs.capacity, hs.length_le⟩
  | clearCache => exact ⟨hs.boolean, hs.capacity, by simp [Session.after, perform, clearCache]⟩
  | press key display =>
    simp only [Session.after, perform, press]
    split
    · exact changed s.mode _ s.history
    · exact hs
  | addToMemory given | subtractFromMemory given =>
    simp only [Session.after, perform, changeMemory]
    split
    · exact changed s.mode _ s.history
    · exact hs
  | clearMemory => exact changed s.mode .empty s.history
  | readMemory | recallEntry | readHistory => exact hs
  | clearHistory => exact changed s.mode s.memory _

theorem Limited.run (hs : s.Limited limit) (ops : List Operation) : (s.run ops).Limited limit :=
  List.foldlRecOn ops Session.after hs fun _ h op _ => h.after op

theorem limited_create {mode historySize : Datum} {cacheSize : Int} {partially : Bool} {s : Session}
    (h : create mode historySize (.int cacheSize) (.bool partially) = .ok s) : s.Limited cacheSize := by
  obtain ⟨m, history, -, -, rfl⟩ := create_eq_ok h
  exact ⟨⟨partially, rfl⟩, rfl, Nat.zero_le _⟩

/-- In every session with whole numbers for its sizes a submission answers with a value or an error, and
the loop over the cache takes nothing from an empty one and leaves what the limit allows; the exception
is an expression with a value under a limit below zero. -/
theorem submit_after_run {mode : Datum} {historySize cacheSize : Int} {partially : Bool} {s₀ : Session}
    (h : create mode (.int historySize) (.int cacheSize) (.bool partially) = .ok s₀)
    (ops : List Operation) (expression : String) :
    let s := s₀.run ops
    (((∃ outcome, (s.submit expression).1 = .ok ⟨expression, outcome⟩) ∧
        (0 ≤ cacheSize ∨ ∃ e, (s.query expression).result = .error (.evaluation e))) ∨
      ((s.submit expression).1 = .error .emptyCache ∧
        cacheSize < 0 ∧ ∃ x, (s.query expression).result = .ok x)) ∧
    ((s.submit expression).2.cache.length : Int) ≤ max cacheSize 0 ∧
    ∀ entries : List (CacheKey × CachedResult),
      Cache.fit s.capacity entries = Cache.evict cacheSize entries ∧
      ((Cache.evict cacheSize entries).2.length : Int) ≤ max cacheSize 0 ∧
      ((Cache.evict cacheSize entries).1 = .ok () ↔ 0 ≤ cacheSize) := by
  intro s
  have hs : s.Limited cacheSize := (limited_create h).run ops
  obtain ⟨hlimited, hsubmit⟩ := hs.submit expression
  have hlength := hlimited.length_le
  refine ⟨hsubmit, by omega, fun entries => ⟨?_, ?_, ?_⟩⟩
  · rw [hs.capacity, Cache.fit_eq_evict]
  · have hle : (Cache.evict cacheSize entries).2.length ≤ cacheSize.toNat := Cache.length_evict_le
    omega
  · by_cases hsize : 0 ≤ cacheSize
    · simp [Cache.evict_of_nonneg hsize, hsize]
    · simp [Cache.evict_of_neg (by omega : cacheSize < 0), hsize]

/-- One sum after another under a limit of one. -/
theorem submit_after_run_of_one :
    ∃ s₀, create (.text "radian") (.int 2) (.int 1) (.bool false) = .ok s₀ ∧
      let s := s₀.run [.submit "1+1"]
      (((∃ outcome, (s.submit "2+2").1 = .ok ⟨"2+2", outcome⟩) ∧
          ((0 : Int) ≤ 1 ∨ ∃ e, (s.query "2+2").result = .error (.evaluation e))) ∨
        ((s.submit "2+2").1 = .error .emptyCache ∧
          (1 : Int) < 0 ∧ ∃ x, (s.query "2+2").result = .ok x)) ∧
      ((s.submit "2+2").2.cache.length : Int) ≤ max 1 0 := by
  let s₀ : Session := ⟨.radian, .bool false, .ofBound (.atMost 2), .empty, .bound (.atMost 1), [], 0, 0⟩
  have hcreate : create (.text "radian") (.int 2) (.int 1) (.bool false) = .ok s₀ := rfl
  obtain ⟨hsubmit, hlength, -⟩ := submit_after_run hcreate [.submit "1+1"] "2+2"
  exact ⟨s₀, hcreate, hsubmit, hlength⟩

/-- A limit below zero is taken as it is, and then a sum fails on the cache. -/
theorem submit_sum_below_zero :
    ∃ s₀, create (.text "radian") (.int 50) (.int (-1)) (.bool false) = .ok s₀ ∧
      (s₀.submit "1+1").1 = .error .emptyCache := by
  let s₀ : Session := ⟨.radian, .bool false, .ofBound (.atMost 50), .empty, .bound (.atMost (-1)), [], 0, 0⟩
  have hcreate : create (.text "radian") (.int 50) (.int (-1)) (.bool false) = .ok s₀ := rfl
  have hvalue : (s₀.query "1+1").succeeds = true := by decide +kernel
  refine ⟨s₀, hcreate, ?_⟩
  rcases ((limited_create hcreate).submit "1+1").2 with ⟨-, hnonneg | ⟨e, herror⟩⟩ | ⟨hsubmit, -⟩
  · exact absurd hnonneg (by decide)
  · rw [Query.succeeds, herror] at hvalue
    cases hvalue
  · exact hsubmit

end Session

end Reckoner
