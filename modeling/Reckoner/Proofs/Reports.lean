import Reckoner.CommandLine.Program
import Reckoner.Proofs.Operations
/-!
# What a run reports

A run without a dialogue prints one item for each expression of the file and then one for each expression of
the options, as each comes out by itself, and it fails if one of them has no value. `Reports` says how far a run
has come in these terms; the file starts it (`Reports.runFile`), and every option adds its item
(`Reports.runOption`).
-/

namespace Reckoner

namespace Query

/-- What is printed for an expression of a file. -/
def fileItem (q : Query) : String :=
  match q.result with
  | .ok x => q.expression ++ " = " ++ x.render
  | .error f => q.expression ++ ": " ++ f.message

/-- What is printed for an expression of an option. -/
def optionItem (q : Query) : String :=
  match q.result with
  | .ok x => x.render
  | .error f => "Error: " ++ f.message

theorem reportLine_row (q : Query) : Batch.reportLine q.row = q.fileItem := by
  rcases q.result_cases with ⟨x, h⟩ | ⟨e, h⟩
  · rw [row_ok h, fileItem, h]; rfl
  · rw [row_error h, fileItem, h]; rfl

theorem isSome_error? (q : Query) : q.error?.isSome = !q.succeeds := by
  rcases q.result_cases with ⟨x, h⟩ | ⟨e, h⟩
  · rw [error?, succeeds, h]; rfl
  · rw [error?, succeeds, h]; rfl

theorem succeeds_eq_false_iff {q : Query} : q.succeeds = false ↔ ∃ f, q.result = .error f := by
  rcases q.result_cases with ⟨x, h⟩ | ⟨e, h⟩
  · simp [succeeds, h, Except.isOk, Except.toBool]
  · simp [succeeds, h, Except.isOk, Except.toBool]

end Query

/-- A batch has failed rows exactly if one of its expressions has no value. -/
theorem Session.failures_rows (s : Session) (xs : List String) :
    decide (Batch.failures (s.rows xs) ≠ 0) = xs.any fun x => !(s.query x).succeeds := by
  have herror : ∀ x, (s.query x).row.error.isSome = !(s.query x).succeeds := fun x => (s.query x).isSome_error?
  rw [Bool.eq_iff_iff, decide_eq_true_iff, List.any_eq_true]
  simp only [Batch.failures, rows, ne_eq, List.length_eq_zero_iff, List.filter_eq_nil_iff, List.forall_mem_map,
    herror, not_forall, not_not, exists_prop]

namespace CommandLine

/-- The run goes on under these settings, has printed these items and knows whether an expression failed. -/
structure Reports (mode : AngleMode) (partially : Bool) (items : List String) (failed : Bool) (p : Progress) :
    Prop where
  faithful : p.session.Faithful
  mode : p.session.mode = mode
  flag : p.session.partially = .bool partially
  stdout : p.stdout = String.join (items.map (· ++ "\n"))
  failed : p.failed = failed
  fault : p.fault = none

section
variable {mode : AngleMode} {partially : Bool} {items : List String} {failed : Bool} {p : Progress}

theorem Reports.query (h : Reports mode partially items failed p) (x : String) :
    p.session.query x = ⟨x, mode, partially⟩ := by
  rw [Session.query_eq h.flag, h.mode]

theorem Reports.printLines (h : Reports mode partially items failed p) (lines : List String) :
    Reports mode partially (items ++ lines) failed (p.printLines lines) where
  faithful := h.faithful
  mode := h.mode
  flag := h.flag
  stdout := by
    show p.stdout ++ String.join (lines.map (· ++ "\n")) = _
    rw [h.stdout, List.map_append, String.join_append]
  failed := h.failed
  fault := h.fault

/-- The session may go on evaluating, whatever is reported and whether something fails. -/
theorem Reports.proceed (h : Reports mode partially items failed p) {s : Session} (hs : s.Faithful)
    (hkeeps : p.session.Keeps s) (log : List LogEvent) (failed' : Bool) :
    Reports mode partially items failed' { p with session := s, log := log, failed := failed' } where
  faithful := hs
  mode := hkeeps.mode.trans h.mode
  flag := hkeeps.partially.trans h.flag
  stdout := h.stdout
  failed := rfl
  fault := h.fault

/-- The expression of an option adds its item. -/
theorem Reports.runOption (h : Reports mode partially items failed p) (x : String) :
    let q : Query := ⟨x, mode, partially⟩
    Reports mode partially (items ++ [q.optionItem]) (failed || !q.succeeds) (runOption p (.text x)) := by
  intro q
  have hkeeps := h.faithful.keeps_evaluate x
  have hfaithful := h.faithful.evaluate x
  have hvalue : (p.session.evaluate x).1 = q.result := by rw [h.faithful.evaluate_eq_result, h.query]
  have hdata : p.session.evaluateData (.text x) = p.session.evaluate x := rfl
  rcases hev : p.session.evaluate x with ⟨r, s⟩
  rw [hev] at hkeeps hfaithful hvalue
  obtain rfl : r = q.result := hvalue
  unfold CommandLine.runOption Progress.andThen
  rw [h.fault]
  dsimp only
  rw [hdata, hev]
  rcases q.result_cases with ⟨v, hresult⟩ | ⟨e, hresult⟩
  · have hfailed : (failed || !q.succeeds) = p.failed := by
      rw [Query.succeeds, hresult, h.failed]
      exact Bool.or_false failed
    rw [hfailed, Query.optionItem, hresult]
    exact (h.proceed hfaithful hkeeps p.log p.failed).printLines [v.render]
  · have hfailed : (failed || !q.succeeds) = true := by
      rw [Query.succeeds, hresult]
      exact Bool.or_true failed
    rw [hfailed, Query.optionItem, hresult]
    exact (h.proceed hfaithful hkeeps (p.log ++ [.optionFailed x e]) true).printLines ["Error: " ++ e.message]

theorem Reports.runOptions (h : Reports mode partially items failed p) (xs : List String) :
    Reports mode partially (items ++ xs.map fun x => (Query.mk x mode partially).optionItem)
      (failed || xs.any fun x => !(Query.mk x mode partially).succeeds)
      ((xs.map Datum.text).foldl CommandLine.runOption p) := by
  induction xs generalizing items failed p with
  | nil => simpa using h
  | cons x xs ih =>
    have hrest := ih (h.runOption x)
    rw [List.append_assoc, Bool.or_assoc] at hrest
    exact hrest

/-- The path can be written, and its folder is there. -/
structure Writable (disk : Disk) (path : String) : Prop where
  folder : disk.hasFolder (folderOf path) = .ok true
  file : disk.checkWrite path = .ok ()

theorem Reports.saveRows {disk : Disk} {path : String} (h : Reports mode partially items failed p)
    (hpath : Writable disk path) (rows : List BatchRow) :
    Reports mode partially items failed (CommandLine.saveRows disk path rows p) := by
  unfold CommandLine.saveRows
  dsimp only
  rw [hpath.folder, hpath.file]
  exact ⟨h.faithful, h.mode, h.flag, h.stdout, h.failed, h.fault⟩

/-- The expressions that a run takes from a file; without a path there are none. -/
def Loads (disk : Disk) (o : Options) (xs : List String) : Prop :=
  if o.inputPath = "" then xs = []
  else (ExpressionFile.load o.inputPath o.column (disk.read o.inputPath)).1 = .ok xs

/-- The expressions of a file each print their item. -/
theorem Reports.runFile {disk : Disk} {o : Options} {xs : List String} (h : Reports mode partially [] false p)
    (hload : Loads disk o xs) (hsave : o.save = true → Writable disk o.savePath) :
    Reports mode partially (xs.map fun x => (Query.mk x mode partially).fileItem)
      (xs.any fun x => !(Query.mk x mode partially).succeeds) (CommandLine.runFile disk o p) := by
  unfold CommandLine.runFile
  unfold Loads at hload
  by_cases hpath : o.inputPath = ""
  · rw [if_pos hpath] at hload ⊢
    subst hload
    exact h
  · rw [if_neg hpath] at hload ⊢
    rcases hloaded : ExpressionFile.load o.inputPath o.column (disk.read o.inputPath) with ⟨loaded, log⟩
    rw [hloaded] at hload
    obtain rfl : loaded = .ok xs := hload
    obtain ⟨log', hbatch⟩ := h.faithful.batch xs
    obtain ⟨hfaithful, hkeeps⟩ := h.faithful.evaluateAll xs
    have hquery : p.session.query = fun x => ⟨x, mode, partially⟩ := funext h.query
    simp only [Progress.report, hbatch]
    have hitems : (xs.map fun x => (Query.mk x mode partially).fileItem) =
        (p.session.rows xs).map Batch.reportLine := by
      rw [Session.rows, List.map_map, hquery]
      simp only [Function.comp_def, Query.reportLine_row]
    have hfailed : (xs.any fun x => !(Query.mk x mode partially).succeeds) =
        decide (Batch.failures (p.session.rows xs) ≠ 0) := by
      rw [Session.failures_rows, hquery]
    rw [hitems, hfailed]
    have hprinted := (h.proceed hfaithful hkeeps (p.log ++ log ++ log')
      (Batch.failures (p.session.rows xs) ≠ 0)).printLines ((p.session.rows xs).map Batch.reportLine)
    split
    · next hs => exact hprinted.saveRows (hsave hs) _
    · exact hprinted

end

/-- A new session has the mode and the flag that the options give. -/
theorem session_eq_ok {o : Options} {mode : AngleMode} (h : o.mode = .text mode.name) :
    ∃ s, session o = .ok s ∧ s.Faithful ∧ s.mode = mode ∧ s.partially = .bool o.partially := by
  have hmode : AngleMode.ofDatum (.text mode.name) = .ok mode := by cases mode <;> rfl
  have hsize : Datum.IsNonnegative (.int 1000) := ⟨.int 1000, 1, rfl, rfl, by decide⟩
  have hcreate : Session.create (.text mode.name) (.int 50) (.int 1000) (.bool o.partially) =
      .ok ⟨mode, .bool o.partially, .ofBound (.atMost 50), .empty, .bound (.atMost 1000), [], 0, 0⟩ := by
    rw [Session.create, hmode]
    rfl
  have hflag : (o.partially || Settings.standard.allowPartial.isGiven) = o.partially := Bool.or_false o.partially
  refine ⟨_, ?_, Session.faithful_create hcreate hsize, rfl, rfl⟩
  rw [session, h, hflag]
  exact hcreate

/-- A run with a file or with expressions in its options, and without a dialogue, prints an item for each
expression of the file and then one for each of the options, as each comes out by itself under the mode and the
flag. Its status is 1 if one of them has no value, and otherwise 0. -/
theorem runOptions_reports {disk : Disk} {o : Options} {mode : AngleMode} {bs es : List String}
    (hmode : o.mode = .text mode.name) (hload : Loads disk o bs) (hes : o.expressions = es.map .text)
    (hgiven : o.inputPath ≠ "" ∨ es ≠ []) (hquiet : o.interactive = false)
    (hsave : o.save = true → Writable disk o.savePath) (input : String) :
    let outcome := runOptions disk o input
    outcome.stdout = String.join
      ((bs.map (fun x => (Query.mk x mode o.partially).fileItem) ++
        es.map fun x => (Query.mk x mode o.partially).optionItem).map (· ++ "\n")) ∧
    ∃ status, outcome.result = .exit status ∧ (status = 0 ∨ status = 1) ∧
      (status = 1 ↔ ∃ x ∈ bs ++ es, ∃ f, Reckoner.evaluate mode o.partially x = .error f) := by
  intro outcome
  obtain ⟨s, hs, hfaithful, hmode', hflag⟩ := session_eq_ok hmode
  have hstart : Reports mode o.partially [] false ⟨s, "", [.started s.mode], [], false, none⟩ :=
    ⟨hfaithful, hmode', hflag, rfl, rfl, rfl⟩
  have hend := (hstart.runFile hload hsave).runOptions es
  have hdialogue : wantsDialogue o = false := by
    rw [wantsDialogue, hquiet, hes]
    rcases hgiven with h | h
    · simp [h]
    · simp [h]
  have houtcome : outcome = (beforeDialogue disk o s).outcome := by
    show runOptions disk o input = _
    rw [CommandLine.runOptions, hs]
    simp [Progress.andThen, hdialogue]
  rw [← hes] at hend
  have hend : Reports mode o.partially _ _ (beforeDialogue disk o s) := hend
  rw [houtcome]
  have hresult : (beforeDialogue disk o s).outcome.result =
      .exit (if (beforeDialogue disk o s).failed then 1 else 0) := by
    rw [Progress.outcome, hend.fault]
  refine ⟨hend.stdout, if (beforeDialogue disk o s).failed then 1 else 0, hresult, ?_, ?_⟩
  · split
    · exact .inr rfl
    · exact .inl rfl
  · have hstatus : (if (beforeDialogue disk o s).failed then 1 else 0) = 1 ↔ (beforeDialogue disk o s).failed := by
      cases (beforeDialogue disk o s).failed <;> decide
    rw [hstatus, hend.failed, ← List.any_append, List.any_eq_true]
    simp only [Bool.not_eq_true', Query.succeeds_eq_false_iff]
    rfl

/-- Infinite results do not fail; one expression of the file does. -/
theorem runOptions_reports_of_file :
    let disk : Disk := ⟨fun _ => .ok "cos(60)\n\n 1+\n".toUTF8, fun _ => .ok true, fun _ => .ok ()⟩
    let o : Options := {
      inputPath := "xs.txt", expressions := ["1/0", "2"].map .text, mode := .text "degree", save := true }
    Loads disk o ["cos(60)", "1+"] ∧ Writable disk o.savePath ∧
      (runOptions disk o "3").stdout = "cos(60) = 0.5000000000000001\n1+: Insufficient operands for +\ninf\n2.0\n" ∧
      ∃ status, (runOptions disk o "3").result = .exit status ∧ status = 1 := by
  intro disk o
  have hload : Loads disk o ["cos(60)", "1+"] := by
    rw [Loads, if_neg (by decide)]
    exact toOption_eq_some_iff.1 (by decide +kernel)
  have hwritable : Writable disk o.savePath := ⟨rfl, rfl⟩
  obtain ⟨hstdout, status, hstatus, -, hfails⟩ :=
    runOptions_reports (show o.mode = .text AngleMode.degree.name from rfl) hload rfl (.inl (by decide)) rfl
      (fun _ => hwritable) "3"
  refine ⟨hload, hwritable, hstdout.trans ?_, status, hstatus, hfails.2 ?_⟩
  · decide +kernel
  · have hplus : (Query.mk "1+" .degree false).result = .error (.evaluation (.missingOperand "+")) :=
      Query.error?_eq_some_iff.1 (by decide +kernel)
    exact ⟨"1+", by decide, _, hplus⟩

end CommandLine

end Reckoner
