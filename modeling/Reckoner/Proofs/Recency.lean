import Mathlib.Data.List.Dedup
import Mathlib.Data.List.DropRight
import Reckoner.Proofs.Operations
/-!
# What the cache holds

A cache for `n` results holds those of the `n` queries that were the last to succeed, in the order of their
last success (`newest`). So a query is a hit exactly if it is among them, and how many hits and misses there
were can be read off the queries alone (`hitCount`).

One evaluation keeps the invariant `Recalls` between a session and the queries since its cache was last
cleared (`Recalls.evaluate`); evaluations are all that changes the cache, but for clearing it.
-/

namespace Reckoner

/-! ## The newest of a list -/

theorem rtake_of_length_le {α : Type} {n : Nat} {l : List α} (h : l.length ≤ n) : l.rtake n = l := by
  simp [List.rtake, Nat.sub_eq_zero_of_le h]

theorem rtake_append {α : Type} {n : Nat} {l₁ l₂ : List α} (h : n ≤ l₂.length) :
    (l₁ ++ l₂).rtake n = l₂.rtake n := by
  have hdrop : l₁.drop ((l₁ ++ l₂).length - n) = [] := List.drop_of_length_le (by
    rw [List.length_append]; omega)
  have hindex : (l₁ ++ l₂).length - n - l₁.length = l₂.length - n := by
    rw [List.length_append]; omega
  rw [List.rtake, List.drop_append, hdrop, hindex, List.nil_append, List.rtake]

section
variable {α : Type} [DecidableEq α]

/-- The last `n` different elements, each at its last place. -/
def newest (n : Nat) (l : List α) : List α := l.dedup.rtake n

theorem nodup_newest (n : Nat) (l : List α) : (newest n l).Nodup :=
  (List.drop_sublist _ _).nodup l.nodup_dedup

theorem length_newest_le (n : Nat) (l : List α) : (newest n l).length ≤ n := by
  simp only [newest, List.rtake, List.length_drop]
  omega

theorem mem_of_mem_newest {n : Nat} {l : List α} {x : α} (h : x ∈ newest n l) : x ∈ l :=
  List.mem_dedup.1 (List.mem_of_mem_drop h)

theorem dedup_concat (l : List α) (x : α) : (l ++ [x]).dedup = l.dedup.filter (· ≠ x) ++ [x] := by
  induction l with
  | nil => simp
  | cons y l ih =>
    rw [List.cons_append]
    by_cases hy : y ∈ l
    · rw [List.dedup_cons_of_mem (List.mem_append_left _ hy), List.dedup_cons_of_mem hy, ih]
    · rw [List.dedup_cons_of_notMem hy]
      by_cases hyx : y = x
      · subst hyx
        rw [List.dedup_cons_of_mem (by simp), ih]
        simp
      · rw [List.dedup_cons_of_notMem (by simp [hy, hyx]), ih]
        simp [hyx]

/-- Without one element, `n` of the last `n + 1` are left. -/
theorem rtake_filter_ne {l : List α} (hl : l.Nodup) (n : Nat) (x : α) :
    (l.filter (· ≠ x)).rtake n = ((l.rtake (n + 1)).filter (· ≠ x)).rtake n := by
  by_cases hlen : l.length ≤ n + 1
  · rw [rtake_of_length_le hlen]
  · have hsplit : l = l.rdrop (n + 1) ++ l.rtake (n + 1) := (List.take_append_drop _ _).symm
    have hnodup : (l.rtake (n + 1)).Nodup := (List.drop_sublist _ _).nodup hl
    have hrtake : (l.rtake (n + 1)).length = n + 1 := by
      simp only [List.rtake, List.length_drop]
      omega
    have hfilter : n ≤ ((l.rtake (n + 1)).filter (· ≠ x)).length := by
      have herase : (l.rtake (n + 1)).filter (· ≠ x) = (l.rtake (n + 1)).erase x := by
        rw [hnodup.erase_eq_filter]
        exact List.filter_congr fun y _ => by by_cases h : y = x <;> simp [h]
      have hle : (l.rtake (n + 1)).length - 1 ≤ ((l.rtake (n + 1)).erase x).length := List.le_length_erase
      rw [herase]
      omega
    conv_lhs => rw [hsplit, List.filter_append]
    exact rtake_append hfilter

theorem newest_concat (n : Nat) (l : List α) (x : α) :
    newest n (l ++ [x]) = ((newest n l).filter (· ≠ x) ++ [x]).rtake n := by
  cases n with
  | zero => simp [newest]
  | succ n =>
    rw [newest, dedup_concat, List.rtake_concat_succ, List.rtake_concat_succ,
      rtake_filter_ne l.nodup_dedup n x, newest]

/-- An element that comes again takes the place of its former self, so none goes. -/
theorem newest_concat_of_mem {n : Nat} {l : List α} {x : α} (h : x ∈ newest n l) :
    newest n (l ++ [x]) = (newest n l).filter (· ≠ x) ++ [x] := by
  have hlt : ((newest n l).filter (· ≠ x)).length < (newest n l).length :=
    List.length_filter_lt_length_iff_exists.2 ⟨x, h, by simp⟩
  have hle := length_newest_le n l
  rw [newest_concat, rtake_of_length_le]
  rw [List.length_append, List.length_singleton]
  omega

theorem newest_concat_of_not_mem {n : Nat} {l : List α} {x : α} (h : x ∉ newest n l) :
    newest n (l ++ [x]) = (newest n l ++ [x]).rtake n := by
  have hfilter : (newest n l).filter (· ≠ x) = newest n l := by
    rw [List.filter_eq_self]
    intro y hy
    have hne : y ≠ x := by
      rintro rfl
      exact h hy
    simp [hne]
  rw [newest_concat, hfilter]

theorem filter_eq_of_mem {l : List α} (hl : l.Nodup) {x : α} (h : x ∈ l) : l.filter (· = x) = [x] := by
  rw [List.filter_eq, List.count_eq_one_of_mem hl h]
  rfl

end

/-! ## What a cache does to its keys -/

namespace Cache

variable {κ ν : Type} [DecidableEq κ]

/-- A key that is found moves to the end. -/
theorem map_fst_touch {entries : List (κ × ν)} {key : κ} (hn : (entries.map (·.1)).Nodup)
    (h : key ∈ entries.map (·.1)) :
    (touch entries key).map (·.1) = (entries.map (·.1)).filter (· ≠ key) ++ [key] := by
  rw [touch, List.map_append, ← filter_eq_of_mem hn h, List.filter_map, List.filter_map]
  rfl

omit [DecidableEq κ] in
theorem map_fst_fit (n : Nat) (entries : List (κ × ν)) :
    (fit (.bound (.atMost n)) entries).2.map (·.1) = (entries.map (·.1)).rtake n := by
  have hfit : (fit (.bound (.atMost n)) entries).2 = entries.drop (entries.length - n) := rfl
  rw [hfit, List.map_drop, List.rtake, List.length_map]

end Cache

/-! ## Hits and misses of a list of queries -/

/-- The queries that have a value. -/
def successes (log : List Query) : List Query := log.filter Query.succeeds

/-- How many queries were among the `n` newest successes before them. -/
def hitCount (n : Nat) (log : List Query) : Nat :=
  log.zipIdx.countP fun p => p.1 ∈ newest n (successes (log.take p.2))

theorem hitCount_concat (n : Nat) (log : List Query) (q : Query) :
    hitCount n (log ++ [q]) = hitCount n log + if q ∈ newest n (successes log) then 1 else 0 := by
  have hlog : ∀ p ∈ log.zipIdx, (log ++ [q]).take p.2 = log.take p.2 := by
    rintro ⟨r, i⟩ hp
    have hi : i < log.length := by simpa using (List.mem_zipIdx hp).2.1
    exact List.take_append_of_le_length (Nat.le_of_lt hi)
  unfold hitCount
  rw [List.zipIdx_append, List.countP_append]
  congr 1
  · exact List.countP_congr fun p hp => by rw [hlog p hp]
  · simp [List.countP_cons]

theorem successes_concat_ok {q : Query} {x : Double} (h : q.result = .ok x) (log : List Query) :
    successes (log ++ [q]) = successes log ++ [q] := by
  have hsucceeds : q.succeeds = true := by rw [Query.succeeds, h]; rfl
  simp [successes, hsucceeds]

theorem successes_concat_error {q : Query} {f : Fault} (h : q.result = .error f) (log : List Query) :
    successes (log ++ [q]) = successes log := by
  have hsucceeds : q.succeeds = false := by rw [Query.succeeds, h]; rfl
  simp [successes, hsucceeds]

/-- What fails is never among the successes. -/
theorem not_mem_newest_of_error {n : Nat} {log : List Query} {q : Query} {f : Fault}
    (h : q.result = .error f) : q ∉ newest n (successes log) := by
  intro hq
  have hsucceeds : q.succeeds = true := (List.mem_filter.1 (mem_of_mem_newest hq)).2
  rw [Query.succeeds, h] at hsucceeds
  cases hsucceeds

namespace Session

/-! ## One evaluation -/

/-- The cache of a session and its counts, for the queries since it was last cleared. -/
structure Recalls (n : Nat) (log : List Query) (s : Session) : Prop where
  faithful : s.Faithful
  capacity : s.capacity = .bound (.atMost n)
  keys : s.keys = (newest n (successes log)).map Query.key
  hits : s.hits = hitCount n log
  total : s.hits + s.misses = log.length

variable {n : Nat} {log : List Query} {s : Session}

theorem Recalls.mem_keys (h : Recalls n log s) {q : Query} : q.key ∈ s.keys ↔ q ∈ newest n (successes log) := by
  rw [h.keys]
  exact List.mem_map_of_injective Query.key_injective

theorem Recalls.nodup_keys (h : Recalls n log s) : s.keys.Nodup := by
  rw [h.keys]
  exact (nodup_newest n _).map Query.key_injective

theorem map_key_filter_ne (l : List Query) (q : Query) :
    (l.map Query.key).filter (· ≠ q.key) = (l.filter (· ≠ q)).map Query.key := by
  rw [List.filter_map]
  congr 1
  refine List.filter_congr fun r _ => ?_
  simp [Query.key_injective.eq_iff]

/-- One more query, in one of its three ways. -/
theorem Recalls.evaluate (h : Recalls n log s) (expression : String) :
    Recalls n (log ++ [s.query expression]) (s.evaluate expression).2 := by
  have hfaithful := h.faithful.evaluate expression
  have hcapacity := (h.faithful.keeps_evaluate expression).capacity.trans h.capacity
  have hev := h.faithful.evaluates expression
  generalize s.query expression = q, (s.evaluate expression).1 = r, (s.evaluate expression).2 = s' at *
  have hkeys : s.cache.map (·.1) = (newest n (successes log)).map Query.key := h.keys
  have hcount := hitCount_concat n log q
  have hlength : (log ++ [q]).length = log.length + 1 := by simp
  have hhits := h.hits
  have htotal := h.total
  cases hev with
  | hit result known =>
    have hmem := h.mem_keys.1 known
    rw [if_pos hmem] at hcount
    refine ⟨hfaithful, hcapacity, ?_, ?_, ?_⟩
    · rw [Session.keys, Cache.map_fst_touch h.nodup_keys known, hkeys, map_key_filter_ne,
        successes_concat_ok result, newest_concat_of_mem hmem, List.map_append, List.map_singleton]
    · rw [hcount, ← hhits]
    · rw [hlength, ← htotal, Nat.add_right_comm]
  | @stored x result unknown =>
    have hmem : q ∉ newest n (successes log) := fun hq => unknown (h.mem_keys.2 hq)
    rw [if_neg hmem] at hcount
    refine ⟨hfaithful, hcapacity, ?_, ?_, ?_⟩
    · rw [Session.keys, h.capacity, Cache.map_fst_fit, List.map_append, hkeys, successes_concat_ok result,
        newest_concat_of_not_mem hmem, List.rtake, List.rtake, List.map_drop, List.map_append]
      simp
    · exact hhits.trans hcount.symm
    · rw [hlength, ← htotal, Nat.add_assoc]
  | failed result unknown =>
    have hmem : q ∉ newest n (successes log) := not_mem_newest_of_error result
    rw [if_neg hmem] at hcount
    refine ⟨hfaithful, hcapacity, ?_, ?_, ?_⟩
    · rw [successes_concat_error result]
      exact h.keys
    · exact hhits.trans hcount.symm
    · rw [hlength, ← htotal, Nat.add_assoc, missed]

theorem Recalls.evaluateAll (h : Recalls n log s) (expressions : List String) :
    Recalls n (log ++ expressions.map s.query) (s.evaluateAll expressions) := by
  induction expressions generalizing log s with
  | nil => simpa [Session.evaluateAll] using h
  | cons e es ih =>
    have hquery : (s.evaluate e).2.query = s.query := funext (h.faithful.keeps_evaluate e).query
    have hrest := ih (h.evaluate e)
    rw [hquery, List.append_assoc, List.singleton_append] at hrest
    exact hrest

/-! ## Runs -/

/-- The queries since the cache was last cleared, in view of one more operation. -/
def noteQueries (s : Session) (log : List Query) : Operation → List Query
  | .evaluate expression | .submit expression => log ++ [s.query expression]
  | .batch expressions => log ++ expressions.map s.query
  | .clearCache => []
  | _ => log

/-- The queries of a run since the cache was last cleared, in order. -/
def queries : Session → List Operation → List Query := noted noteQueries []

theorem noteQueries_of_quiet {op : Operation} (hop : op.IsQuiet) (s : Session) (log : List Query) :
    s.noteQueries log op = log := by
  cases op <;> first | rfl | cases hop

theorem Recalls.after (h : Recalls n log s) (op : Operation) : Recalls n (s.noteQueries log op) (s.after op) := by
  have heffect := h.faithful.effect op
  have hfaithful := h.faithful.after op
  generalize s.after op = s' at heffect hfaithful ⊢
  cases heffect with
  | evaluated expression => exact h.evaluate expression
  | @entered expression x result =>
    have hev := h.evaluate expression
    exact ⟨hfaithful, hev.capacity, hev.keys, hev.hits, hev.total⟩
  | @refused expression e result => exact h.evaluate expression
  | evaluatedAll expressions => exact h.evaluateAll expressions
  | cacheCleared => exact ⟨hfaithful, h.capacity, by simp [Session.keys, noteQueries, successes, newest], rfl, rfl⟩
  | historyCleared => exact ⟨hfaithful, h.capacity, h.keys, h.hits, h.total⟩
  | quiet isQuiet mode boolean memory =>
    rw [noteQueries_of_quiet isQuiet]
    exact ⟨hfaithful, h.capacity, h.keys, h.hits, h.total⟩

theorem Recalls.run {s₀ : Session} (h : Recalls n [] s₀) (ops : List Operation) :
    Recalls n (s₀.queries ops) (s₀.run ops) := by
  induction ops using List.reverseRecOn with
  | nil => exact h
  | append_singleton ops op ih =>
    rw [queries, noted_concat, run_concat]
    exact ih.after op

/-- After any operations the cache for `n` results holds those of the `n` newest different successes since it
was cleared, oldest first. Every query was a hit if it was among these at its time, and a miss if not; one that
fails is a miss and changes nothing in the cache. -/
theorem cache_after_run {mode historySize : Datum} {partially : Bool} {n : Nat} {s₀ : Session}
    (h : create mode historySize (.int n) (.bool partially) = .ok s₀) (ops : List Operation) :
    let s := s₀.run ops
    let log := s₀.queries ops
    s.keys = (newest n (successes log)).map Query.key ∧
    s.cache.length ≤ n ∧
    s.hits = hitCount n log ∧
    s.hits + s.misses = log.length ∧
    (∀ i q f, log[i]? = some q → q.result = .error f → q ∉ newest n (successes (log.take i))) ∧
    ∀ expression,
      let (r, s') := s.evaluate expression
      (if s.query expression ∈ newest n (successes log) then s'.hits = s.hits + 1 ∧ s'.misses = s.misses
        else s'.hits = s.hits ∧ s'.misses = s.misses + 1) ∧
      ∀ f, r = .error f → s'.cache = s.cache ∧ s'.hits = s.hits ∧ s'.misses = s.misses + 1 := by
  intro s log
  have hsize : Datum.IsNonnegative (.int n) := ⟨.int n, _, rfl, rfl, Int.sign_nonneg_iff.2 (Int.natCast_nonneg n)⟩
  have hfaithful : s₀.Faithful := faithful_create h hsize
  obtain ⟨m, history, -, -, rfl⟩ := create_eq_ok h
  have hnew : Recalls n [] ⟨m, .bool partially, history, .empty, .ofDatum (.int n), [], 0, 0⟩ :=
    ⟨hfaithful, rfl, by simp [Session.keys, successes, newest], rfl, rfl⟩
  have hs : Recalls n log s := hnew.run ops
  refine ⟨hs.keys, ?_, hs.hits, hs.total, fun i q f _ hq => not_mem_newest_of_error hq, fun expression => ?_⟩
  · have hlength : s.keys.length ≤ n := by
      rw [hs.keys, List.length_map]
      exact length_newest_le n _
    simpa [Session.keys] using hlength
  · have hev := hs.faithful.evaluates expression
    have hmem := hs.mem_keys (q := s.query expression)
    rcases hevaluate : s.evaluate expression with ⟨r, s'⟩
    rw [hevaluate] at hev
    generalize s.query expression = q at hev hmem ⊢
    cases hev with
    | hit result known => simp [hmem.1 known]
    | stored result unknown => simp [mt hmem.2 unknown]
    | failed result unknown => simp [mt hmem.2 unknown]

/-- With room for two results a third one and a failure come in, and one is asked for again. -/
theorem cache_after_run_of_two :
    ∃ s₀, create (.text "radian") (.int 2) (.int (2 : Nat)) (.bool false) = .ok s₀ ∧
      let ops : List Operation := [.evaluate "1", .batch ["2", "1+", "1"], .toggleMode, .submit "3"]
      let s := s₀.run ops
      let log := s₀.queries ops
      s.keys = (newest 2 (successes log)).map Query.key ∧ s.cache.length ≤ 2 ∧
        s.hits = hitCount 2 log ∧ s.hits + s.misses = log.length := by
  let s₀ : Session := ⟨.radian, .bool false, .ofBound (.atMost 2), .empty, .bound (.atMost 2), [], 0, 0⟩
  have hcreate : create (.text "radian") (.int 2) (.int (2 : Nat)) (.bool false) = .ok s₀ := rfl
  obtain ⟨hkeys, hsize, hhits, htotal, -⟩ := cache_after_run hcreate
    [.evaluate "1", .batch ["2", "1+", "1"], .toggleMode, .submit "3"]
  exact ⟨s₀, hcreate, hkeys, hsize, hhits, htotal⟩

end Session

end Reckoner
