import Reckoner.ExpressionFile
import Reckoner.Proofs.Gaps
import Reckoner.Proofs.Operations
import Reckoner.Proofs.Tables
/-!
# Batches loaded again

The table that a batch is saved as has its expressions in the first column, so loading that file gives them
back (`load_csv`), stripped and without the blank ones. What is stripped off an expression makes no difference
to its value, so the loaded expressions come to what their rows say.
-/

namespace Reckoner

/-! ## Loading what was saved -/

namespace ExpressionFile

/-- The expressions of a saved batch, each up to its first NUL. -/
theorem rawOfText_csv {path : String} (hpath : isTable path) (rows : List BatchRow) :
    rawOfText path (.text "expression") (Batch.csv rows) =
      .ok (rows.map fun row => String.ofList (Csv.shown row.expression.plain.toList)) := by
  have hnames : Csv.distinct (["expression", "result", "error"].map (Csv.shown ∘ String.toList)) =
      ["expression", "result", "error"] := by decide +kernel
  obtain ⟨table, htable, hcolumn⟩ : ∃ table, Csv.table (Batch.csv rows).toList = .ok table ∧
      table.column? "expression" =
        some (rows.map fun row => String.ofList (Csv.shown row.expression.plain.toList)) := by
    refine ⟨_, Csv.table_write (by decide) (by simp) (by decide +kernel), ?_⟩
    rw [hnames, Csv.Table.column?_first]
    simp
  rw [rawOfText, if_pos hpath, htable]
  simp only [Except.mapError, ok_bind, cells, hcolumn]

/-- A saved batch is loaded as its expressions, stripped and without the blank ones, if none has a NUL in it. -/
theorem load_csv {path : String} (hpath : isTable path) {rows : List BatchRow} {xs : List String}
    (hrows : rows.map (·.expression) = xs.map .text) (hxs : ∀ x ∈ xs, '\x00' ∉ x.toList) :
    (load path (.text "expression") (.ok (Batch.csv rows).toUTF8)).1 =
      .ok ((xs.filter (Text.strip · ≠ "")).map Text.strip) := by
  have hwhole : ∀ x ∈ xs, String.ofList (Csv.shown x.toList) = x := by
    intro x hx
    have hnul : ∀ c ∈ x.toList, c ≠ '\x00' := fun c hc hnul => hxs x hx (hnul ▸ hc)
    rw [Csv.shown, List.takeWhile_eq_self_iff.2 (by simpa using hnul), String.ofList_toList]
  have hcells : rows.map (fun row => String.ofList (Csv.shown row.expression.plain.toList)) = xs := by
    calc rows.map (fun row => String.ofList (Csv.shown row.expression.plain.toList))
        = (rows.map (·.expression)).map fun d => String.ofList (Csv.shown d.plain.toList) := by
          rw [List.map_map]; rfl
      _ = xs.map fun x => String.ofList (Csv.shown x.toList) := by
          rw [hrows, List.map_map]; rfl
      _ = xs := by
          rw [List.map_congr_left hwhole, List.map_id']
  have hraw := rawOfText_csv hpath rows
  rw [hcells, ← raw_toUTF8] at hraw
  simp only [load, hraw, List.filter_map, Function.comp_def]

end ExpressionFile

/-! ## Evaluating it again -/

/-- The result and the error of a row depend on the result of its query only. -/
theorem Query.row_congr {q q' : Query} (h : q.result = q'.result) :
    q.row.result = q'.row.result ∧ q.row.error = q'.row.error := by
  simp only [row, error?, h, and_self]

namespace Session

theorem result_strip (s : Session) (x : String) : (s.query (Text.strip x)).result = (s.query x).result :=
  evaluate_strip _ _ x

/-- A session as a caller has it: created with a truth value for the flag and a size of the cache from zero on,
and used in any way since. -/
def Reachable (s : Session) : Prop :=
  ∃ (mode historySize cacheSize : Datum) (partially : Bool) (s₀ : Session) (ops : List Operation),
    create mode historySize cacheSize (.bool partially) = .ok s₀ ∧ cacheSize.IsNonnegative ∧ s = s₀.run ops

theorem Reachable.faithful {s : Session} (hs : s.Reachable) : s.Faithful := by
  obtain ⟨mode, historySize, cacheSize, partially, s₀, ops, hcreate, hsize, rfl⟩ := hs
  exact (faithful_create hcreate hsize).run ops

/-- A batch that is saved as a table can be loaded again: loading gives the expressions that are not blank,
stripped and in their order, whatever commas, quotes, line ends or blanks they have in them. Any session with the
same settings gives them the results and the errors of the rows they were saved with. -/
theorem reload_csv {s s' : Session} (hs : s.Reachable) (hs' : s'.Reachable) (hmode : s'.mode = s.mode)
    (hflag : s'.partially = s.partially) {path : String} (hpath : ExpressionFile.isTable path) {xs : List String}
    (hxs : ∀ x ∈ xs, '\x00' ∉ x.toList) :
    ∃ rows again : List BatchRow, ∃ loaded : List String,
      (Batch.evaluate s (xs.map .text)).1 = .ok rows ∧ rows.map (·.expression) = xs.map .text ∧
      (ExpressionFile.load path (.text "expression") (.ok (Batch.csv rows).toUTF8)).1 = .ok loaded ∧
      loaded = (xs.filter (Text.strip · ≠ "")).map Text.strip ∧
      (Batch.evaluate s' (loaded.map .text)).1 = .ok again ∧
      again.map (fun row => (row.result, row.error)) =
        ((xs.zip rows).filter (Text.strip ·.1 ≠ "")).map fun p => (p.2.result, p.2.error) := by
  obtain ⟨log, hbatch⟩ := hs.faithful.batch xs
  obtain ⟨log', hagain⟩ := hs'.faithful.batch ((xs.filter (Text.strip · ≠ "")).map Text.strip)
  have hexpressions : (s.rows xs).map (·.expression) = xs.map .text := by
    rw [rows, List.map_map]
    rfl
  refine ⟨s.rows xs, s'.rows ((xs.filter (Text.strip · ≠ "")).map Text.strip), _, by rw [hbatch], hexpressions,
    ExpressionFile.load_csv hpath hexpressions hxs, rfl, by rw [hagain], ?_⟩
  have hrow : ∀ x, ((s'.query (Text.strip x)).row.result, (s'.query (Text.strip x)).row.error) =
      ((s.query x).row.result, (s.query x).row.error) := by
    intro x
    obtain ⟨hresult, herror⟩ := Query.row_congr (s.result_strip x)
    rw [query_congr hmode hflag, hresult, herror]
  have hzip : xs.zip (s.rows xs) = xs.map fun x => (x, (s.query x).row) := by
    calc xs.zip (s.rows xs) = (xs.map id).zip (s.rows xs) := by rw [List.map_id]
      _ = xs.map fun x => (x, (s.query x).row) := List.zip_map'
  rw [hzip, rows, List.filter_map, List.map_map, List.map_map, List.map_map]
  simp only [Function.comp_def, hrow]

/-- Blanks around quotes, commas, both line ends, a blank text and one that a table could take for a gap. -/
theorem reload_csv_of_quoted :
    ∃ s₀, create (.text "radian") (.int 2) (.int 1) (.bool false) = .ok s₀ ∧
      let xs := ["1,2", " \"2\"+1 ", "\t", "nan", "1\r\n+1"]
      let loaded := ["1,2", "\"2\"+1", "nan", "1\r\n+1"]
      (∀ x ∈ xs, '\x00' ∉ x.toList) ∧ ExpressionFile.isTable "out.csv" ∧
      ∃ rows again : List BatchRow, (Batch.evaluate s₀ (xs.map .text)).1 = .ok rows ∧
        (ExpressionFile.load "out.csv" (.text "expression") (.ok (Batch.csv rows).toUTF8)).1 = .ok loaded ∧
        (Batch.evaluate (s₀.run [.evaluate "2"]) (loaded.map .text)).1 = .ok again ∧
        again.map (fun row => (row.result, row.error)) =
          ((xs.zip rows).filter (Text.strip ·.1 ≠ "")).map fun p => (p.2.result, p.2.error) := by
  let s₀ : Session := ⟨.radian, .bool false, .ofBound (.atMost 2), .empty, .bound (.atMost 1), [], 0, 0⟩
  have hcreate : create (.text "radian") (.int 2) (.int 1) (.bool false) = .ok s₀ := rfl
  have hsize : Datum.IsNonnegative (.int 1) := ⟨.int 1, 1, rfl, rfl, by decide⟩
  have hnew : s₀.Reachable := ⟨_, _, _, _, s₀, [], hcreate, hsize, rfl⟩
  have hused : (s₀.run [.evaluate "2"]).Reachable := ⟨_, _, _, _, s₀, _, hcreate, hsize, rfl⟩
  have hkeeps := hnew.faithful.keeps_evaluate "2"
  have hxs : ∀ x ∈ ["1,2", " \"2\"+1 ", "\t", "nan", "1\r\n+1"], '\x00' ∉ x.toList := by simp
  have hpath : ExpressionFile.isTable "out.csv" := by decide +kernel
  obtain ⟨rows, again, loaded, hrows, -, hload, hloaded, hagain, hsame⟩ :=
    reload_csv hnew hused hkeeps.mode hkeeps.partially hpath hxs
  have hstripped : loaded = ["1,2", "\"2\"+1", "nan", "1\r\n+1"] := hloaded.trans (by decide +kernel)
  rw [hstripped] at hload hagain
  exact ⟨s₀, hcreate, hxs, hpath, rows, again, hrows, hload, hagain, hsame⟩

end Session

end Reckoner
