import Reckoner.Proofs.Operations
/-!
# What the history holds

A history of size `n` holds the `n` newest submissions that had a value, the newest first, since it was last
cleared; no other operation touches it. So a position is a place in that list, and any other integer is
refused.
-/

namespace Reckoner

namespace History

variable {α : Type}

/-- Cutting before an entry comes in makes no difference. -/
theorem fitted_cons_take (n : Nat) (entry : α × Double) (entries : List (α × Double)) :
    fitted (.atMost n) (entry :: entries.take n) = (entry :: entries).take n := by
  cases n with
  | zero => rfl
  | succ n =>
    show (entry :: entries.take (n + 1)).take (n + 1) = _
    rw [List.take_succ_cons, List.take_succ_cons, List.take_take]
    congr 2
    omega

theorem expressionAt?_natCast (h : History α) (i : Nat) : h.expressionAt? i = h.entries[i]?.map (·.1) := by
  show (h.entries.map (·.1))[i]? = _
  rw [List.getElem?_map]

theorem expressionAt?_eq_none {h : History α} {i : Int} (hi : i < 0 ∨ h.entries.length ≤ i) :
    h.expressionAt? i = none := by
  cases i with
  | negSucc i => rfl
  | ofNat i =>
    have hlength : h.entries.length ≤ i := by simp only [Int.ofNat_eq_natCast] at hi; omega
    exact (h.expressionAt?_natCast i).trans (by rw [List.getElem?_eq_none hlength]; rfl)

theorem create_eq_ok {n : Nat} {h : History α} (hcreate : create (.int n) = .ok h) : h = ⟨.atMost n, []⟩ := by
  simp only [create, Datum.number?] at hcreate
  split at hcreate
  · cases hcreate
  · cases hcreate
  · cases hcreate; rfl

end History

namespace Session

/-- The submissions with a value since the history was last cleared, the newest first, in view of one more
operation. -/
def noteSubmissions (s : Session) (log : List (String × Double)) : Operation → List (String × Double)
  | .submit expression => match (s.query expression).result with
    | .ok x => (expression, x) :: log
    | .error _ => log
  | .clearHistory => []
  | _ => log

/-- The submissions of a run that had a value, since the history was last cleared. -/
def submissions : Session → List Operation → List (String × Double) := noted noteSubmissions []

theorem noteSubmissions_of_quiet {op : Operation} (hop : op.IsQuiet) (s : Session)
    (log : List (String × Double)) : s.noteSubmissions log op = log := by
  cases op <;> first | rfl | cases hop

/-- The history of a session, for the submissions since it was last cleared. -/
structure Remembers (n : Nat) (log : List (String × Double)) (s : Session) : Prop where
  faithful : s.Faithful
  history : s.history = ⟨.atMost n, log.take n⟩

theorem Remembers.after {n : Nat} {log : List (String × Double)} {s : Session} (h : Remembers n log s)
    (op : Operation) : Remembers n (s.noteSubmissions log op) (s.after op) := by
  have heffect := h.faithful.effect op
  have hfaithful := h.faithful.after op
  generalize s.after op = s' at heffect hfaithful ⊢
  refine ⟨hfaithful, ?_⟩
  cases heffect with
  | evaluated expression => exact (h.faithful.keeps_evaluate expression).history.trans h.history
  | entered result =>
    simp only [noteSubmissions, result, h.history, History.add, History.fitted_cons_take]
  | @refused expression e result =>
    simp only [noteSubmissions, result]
    exact (h.faithful.keeps_evaluate expression).history.trans h.history
  | evaluatedAll expressions => exact (h.faithful.evaluateAll expressions).2.history.trans h.history
  | cacheCleared => exact h.history
  | historyCleared => simp only [noteSubmissions, h.history, History.clear, List.take_nil]
  | quiet isQuiet mode boolean memory =>
    rw [noteSubmissions_of_quiet isQuiet]
    exact h.history

theorem Remembers.run {n : Nat} {s₀ : Session} (h : Remembers n [] s₀) (ops : List Operation) :
    Remembers n (s₀.submissions ops) (s₀.run ops) := by
  induction ops using List.reverseRecOn with
  | nil => exact h
  | append_singleton ops op ih =>
    rw [submissions, noted_concat, run_concat]
    exact ih.after op

theorem remembers_create {mode cacheSize : Datum} {partially : Bool} {n : Nat} {s : Session}
    (h : create mode (.int n) cacheSize (.bool partially) = .ok s) (hsize : cacheSize.IsNonnegative) :
    Remembers n [] s := by
  refine ⟨faithful_create h hsize, ?_⟩
  obtain ⟨m, history, -, hhistory, rfl⟩ := create_eq_ok h
  rw [List.take_nil]
  exact History.create_eq_ok hhistory

/-- Only a submission that has a value and clearing change the history. -/
theorem Faithful.history_after {s : Session} (hs : s.Faithful) {op : Operation} (hclear : op ≠ .clearHistory)
    (hsubmit : ∀ expression, op = .submit expression → ∃ f, (s.query expression).result = .error f) :
    (s.after op).history = s.history := by
  have heffect := hs.effect op
  generalize s.after op = s' at heffect ⊢
  cases heffect with
  | evaluated expression => exact (hs.keeps_evaluate expression).history
  | @entered expression x result =>
    obtain ⟨f, hf⟩ := hsubmit expression rfl
    rw [result] at hf
    cases hf
  | @refused expression e result => exact (hs.keeps_evaluate expression).history
  | evaluatedAll expressions => exact (hs.evaluateAll expressions).2.history
  | historyCleared => exact absurd rfl hclear
  | cacheCleared => rfl
  | quiet isQuiet mode boolean memory => rfl

/-- After any operations the history of size `n` holds the `n` newest submissions that had a value, each with
the value that its expression had by itself at that moment. A position from zero on gives back the expression
of that entry, and every other integer is refused. -/
theorem history_after_run {mode cacheSize : Datum} {partially : Bool} {n : Nat} {s₀ : Session}
    (h : create mode (.int n) cacheSize (.bool partially) = .ok s₀) (hsize : cacheSize.IsNonnegative)
    (ops : List Operation) :
    let s := s₀.run ops
    s.history.entries = (s₀.submissions ops).take n ∧
    (∀ op, op ≠ .clearHistory →
      (∀ expression, op = .submit expression → ∃ f, (s.query expression).result = .error f) →
      (s.after op).history = s.history) ∧
    (∀ (i : Nat) expression x, ((s₀.submissions ops).take n)[i]? = some (expression, x) →
      s.perform (.recallEntry (.int i)) = (.ok (.expression expression), s)) ∧
    ∀ i : Int, i < 0 ∨ s.history.entries.length ≤ i →
      s.perform (.recallEntry (.int i)) = (.error (.noHistoryEntry (.int i)), s) ∧
        (Fault.noHistoryEntry (.int i)).category = .index := by
  intro s
  have hs : Remembers n (s₀.submissions ops) s := (remembers_create h hsize).run ops
  have hentries : s.history.entries = (s₀.submissions ops).take n := by rw [hs.history]
  refine ⟨hentries, fun op => hs.faithful.history_after, fun i e x hi => ?_, fun i hi => ⟨?_, rfl⟩⟩
  · have hat : s.history.expressionAt? i = some e := by
      rw [History.expressionAt?_natCast, hentries, hi]
      rfl
    simp only [perform, History.expressionAtDatum, Datum.number?, hat]
    rfl
  · simp only [perform, History.expressionAtDatum, Datum.number?, History.expressionAt?_eq_none hi]
    rfl

/-- Two of three submissions are left; the one that failed and the one in a batch were never entered. -/
theorem history_after_run_of_two :
    ∃ s₀, create (.text "degree") (.int (2 : Nat)) (.int 0) (.bool false) = .ok s₀ ∧
      Datum.IsNonnegative (.int 0) ∧
      let ops : List Operation := [.submit "1", .submit "2", .submit "1+", .batch ["4"], .toggleMode, .submit "3"]
      let s := s₀.run ops
      s.history.entries = (s₀.submissions ops).take 2 ∧
        s.perform (.recallEntry (.int (-1))) = (.error (.noHistoryEntry (.int (-1))), s) := by
  let s₀ : Session := ⟨.degree, .bool false, .ofBound (.atMost 2), .empty, .bound (.atMost 0), [], 0, 0⟩
  have hcreate : create (.text "degree") (.int (2 : Nat)) (.int 0) (.bool false) = .ok s₀ := rfl
  have hsize : Datum.IsNonnegative (.int 0) := ⟨.int 0, 0, rfl, rfl, by decide⟩
  obtain ⟨hentries, -, -, houtside⟩ := history_after_run hcreate hsize
    [.submit "1", .submit "2", .submit "1+", .batch ["4"], .toggleMode, .submit "3"]
  exact ⟨s₀, hcreate, hsize, hentries, (houtside (-1) (.inl (by decide))).1⟩

end Session

end Reckoner
