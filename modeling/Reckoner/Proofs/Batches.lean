import Reckoner.Proofs.Operations
/-!
# What a batch gives

The rows of a batch are those that its expressions have by themselves (`Session.rows`), whatever the session
has in its cache. So neither their order nor what stands beside them makes a difference to the rows, and two
batches in a row are one.
-/

namespace Reckoner.Session

theorem rows_append (s : Session) (xs ys : List String) : s.rows (xs ++ ys) = s.rows xs ++ s.rows ys :=
  List.map_append

theorem evaluateAll_append (s : Session) (xs ys : List String) :
    s.evaluateAll (xs ++ ys) = (s.evaluateAll xs).evaluateAll ys :=
  List.foldl_append

/-- A second batch goes on where the first one stopped, as if both were one. -/
theorem Faithful.batch_append {s : Session} (hs : s.Faithful) (xs ys : List String) :
    ∃ log log', Batch.evaluate s ((xs ++ ys).map .text) =
        (.ok (s.rows xs ++ s.rows ys), (s.evaluateAll xs).evaluateAll ys, log) ∧
      Batch.evaluate (s.evaluateAll xs) (ys.map .text) =
        (.ok (s.rows ys), (s.evaluateAll xs).evaluateAll ys, log') := by
  obtain ⟨hfaithful, hkeeps⟩ := hs.evaluateAll xs
  obtain ⟨log, hbatch⟩ := hs.batch (xs ++ ys)
  obtain ⟨log', hbatch'⟩ := hfaithful.batch ys
  rw [rows_append, evaluateAll_append] at hbatch
  rw [hkeeps.rows] at hbatch'
  exact ⟨log, log', hbatch, hbatch'⟩

/-- After any operations a batch gives one row for each expression, in their order: its value by itself under
the settings of the moment and no error, which goes for the value `nan` too, or `nan` and its error. A batch of
the same expressions in another order gives the same rows in that order, two batches give the rows of one, and
the settings, the memory and the history stay. -/
theorem batch_after_run {mode historySize cacheSize : Datum} {partially : Bool} {s₀ : Session}
    (h : create mode historySize cacheSize (.bool partially) = .ok s₀) (hsize : cacheSize.IsNonnegative)
    (ops : List Operation) (xs : List String) :
    let s := s₀.run ops
    ∃ b, ∃ rows : List BatchRow, ∃ s' log, s.partially = .bool b ∧ Batch.evaluate s (xs.map .text) = (.ok rows, s', log) ∧
      rows.length = xs.length ∧
      (∀ (i : Nat) x, xs[i]? = some x →
        (∃ v, Reckoner.evaluate s.mode b x = .ok v ∧ rows[i]? = some (BatchRow.mk (.text x) v none)) ∨
        ∃ e, Reckoner.evaluate s.mode b x = .error (.evaluation e) ∧
          rows[i]? = some (BatchRow.mk (.text x) .nan (some e))) ∧
      (∀ ys : List String, ys.Perm xs →
        ∃ permuted, (Batch.evaluate s (ys.map .text)).1 = .ok permuted ∧ permuted.Perm rows) ∧
      (∀ ys : List String, ∃ further, (Batch.evaluate s' (ys.map .text)).1 = .ok further ∧
        (Batch.evaluate s ((xs ++ ys).map .text)).1 = .ok (rows ++ further) ∧
        (Batch.evaluate s ((xs ++ ys).map .text)).2.1 = (Batch.evaluate s' (ys.map .text)).2.1) ∧
      s'.mode = s.mode ∧ s'.partially = s.partially ∧ s'.memory = s.memory ∧ s'.history = s.history := by
  intro s
  have hs : s.Faithful := (faithful_create h hsize).run ops
  obtain ⟨b, hb⟩ := hs.boolean
  obtain ⟨log, hbatch⟩ := hs.batch xs
  have hkeeps := (hs.evaluateAll xs).2
  refine ⟨b, s.rows xs, s.evaluateAll xs, log, hb, hbatch, List.length_map _, fun i x hx => ?_, fun ys hys => ?_,
    fun ys => ?_, hkeeps.mode, hkeeps.partially, hkeeps.memory, hkeeps.history⟩
  · have hrow : (s.rows xs)[i]? = some (Query.mk x s.mode b).row := by
      rw [rows, List.getElem?_map, hx, Option.map_some, query_eq hb]
    rw [hrow]
    rcases (Query.mk x s.mode b).result_cases with ⟨v, hresult⟩ | ⟨e, hresult⟩
    · exact .inl ⟨v, hresult, congrArg some (Query.row_ok hresult)⟩
    · exact .inr ⟨e, hresult, congrArg some (Query.row_error hresult)⟩
  · obtain ⟨log, hbatch⟩ := hs.batch ys
    exact ⟨s.rows ys, by rw [hbatch], hys.map _⟩
  · obtain ⟨log, log', hboth, hsecond⟩ := hs.batch_append xs ys
    exact ⟨s.rows ys, by rw [hsecond], by rw [hboth], by rw [hboth, hsecond]⟩

/-- With room for one result, a batch with an expression twice, one whose value is `nan` and one that fails. -/
theorem batch_after_run_of_nan :
    ∃ s₀, create (.text "radian") (.int 2) (.int 1) (.bool false) = .ok s₀ ∧ Datum.IsNonnegative (.int 1) ∧
      let s := s₀.run [.submit "0/0", .setMode (.text "degree"), .setPartially false]
      ∃ rows : List BatchRow, ∃ s' log,
        Batch.evaluate s (["0/0", "1+", "2", "0/0"].map .text) = (.ok rows, s', log) ∧ rows.length = 4 ∧
        rows[0]? = some (BatchRow.mk (.text "0/0") .nan none) ∧
        rows[1]? = some (BatchRow.mk (.text "1+") .nan (some (.missingOperand "+"))) ∧
        (∃ permuted, (Batch.evaluate s (["1+", "0/0", "0/0", "2"].map .text)).1 = .ok permuted ∧
          permuted.Perm rows) ∧
        s'.mode = .degree ∧ s'.history = s.history := by
  let s₀ : Session := ⟨.radian, .bool false, .ofBound (.atMost 2), .empty, .bound (.atMost 1), [], 0, 0⟩
  have hcreate : create (.text "radian") (.int 2) (.int 1) (.bool false) = .ok s₀ := rfl
  have hsize : Datum.IsNonnegative (.int 1) := ⟨.int 1, 1, rfl, rfl, by decide⟩
  obtain ⟨b, rows, s', log, hb, hbatch, hlength, hrows, hperm, -, hmode, -, -, hhistory⟩ :=
    batch_after_run hcreate hsize [.submit "0/0", .setMode (.text "degree"), .setPartially false]
      ["0/0", "1+", "2", "0/0"]
  obtain rfl : false = b := Datum.bool.inj hb
  refine ⟨s₀, hcreate, hsize, rows, s', log, hbatch, hlength, ?_, ?_, hperm _ (by decide), hmode, hhistory⟩
  · have hnan : Reckoner.evaluate .degree false "0/0" = .ok .nan := toOption_eq_some_iff.1 (by decide +kernel)
    rcases hrows 0 "0/0" rfl with ⟨v, hv, hrow⟩ | ⟨e, he, hrow⟩
    · cases hnan.symm.trans hv
      exact hrow
    · cases hnan.symm.trans he
  · have hplus : (Query.mk "1+" .degree false).result = .error (.evaluation (.missingOperand "+")) :=
      Query.error?_eq_some_iff.1 (by decide +kernel)
    rcases hrows 1 "1+" rfl with ⟨v, hv, hrow⟩ | ⟨e, he, hrow⟩
    · cases hplus.symm.trans hv
    · cases hplus.symm.trans he
      exact hrow

end Reckoner.Session
