import Reckoner.Proofs.Submissions
/-!
# What a failure leaves behind

An operation that fails leaves the session as it was, but that an expression without a value counts as one more
miss. Nothing without a value is ever in the cache, so such an expression never touches it, and it fails alike
each time that it is asked for under the same settings.
-/

namespace Reckoner

/-- A fault, or a submission that has no value. -/
inductive Answer.Failure : Except Fault Answer → Prop
  | fault (f : Fault) : Failure (.error f)
  | submission (expression : String) (e : EvaluationError) : Failure (.ok (.submission ⟨expression, .error e⟩))

/-- How many misses an operation that fails counts. -/
def Operation.failedLookups : Operation → Nat
  | evaluate _ | submit _ => 1
  | _ => 0

namespace Session

variable {s : Session}

/-- An expression without a value is not in the cache and is a miss. -/
theorem Faithful.evaluate_of_error (hs : s.Faithful) {expression : String} {f : Fault}
    (h : (s.query expression).result = .error f) :
    (s.query expression).key ∉ s.keys ∧ s.evaluate expression = (.error f, s.missed) := by
  have hev := hs.evaluates expression
  rcases hevaluate : s.evaluate expression with ⟨r, s'⟩
  rw [hevaluate] at hev
  generalize s.query expression = q at h hev
  cases hev with
  | hit result known => cases h.symm.trans result
  | stored result unknown => cases h.symm.trans result
  | failed result unknown =>
    cases h.symm.trans result
    exact ⟨unknown, rfl⟩

theorem Faithful.submit_of_error (hs : s.Faithful) {expression : String} {e : EvaluationError}
    (h : (s.query expression).result = .error (.evaluation e)) :
    s.submit expression = (.ok ⟨expression, .error e⟩, s.missed) := by
  have hevaluate := (hs.evaluate_of_error h).2
  rcases hs.submits expression with ⟨x, hx, -⟩ | ⟨e', he', hsubmit⟩
  · cases h.symm.trans hx
  · cases h.symm.trans he'
    rw [hsubmit, hevaluate]

theorem Faithful.exists_submit_of_error (hs : s.Faithful) {expression : String} {f : Fault}
    (h : (s.query expression).result = .error f) :
    ∃ e, f = .evaluation e ∧ s.submit expression = (.ok ⟨expression, .error e⟩, s.missed) := by
  rcases (s.query expression).result_cases with ⟨x, hx⟩ | ⟨e, he⟩
  · cases h.symm.trans hx
  · cases h.symm.trans he
    exact ⟨e, rfl, hs.submit_of_error he⟩

theorem recallEntry_outside {i : Int} (h : i < 0 ∨ s.history.entries.length ≤ i) :
    s.perform (.recallEntry (.int i)) = (.error (.noHistoryEntry (.int i)), s) := by
  simp only [perform, History.expressionAtDatum, Datum.number?, History.expressionAt?_eq_none h]
  rfl

theorem setMode_of_error {given : Datum} {f : Fault} (h : AngleMode.ofDatum given = .error f) :
    s.perform (.setMode given) = (.error f, s) := by
  simp only [perform, h]

theorem press_of_error {key display : Datum} {f : Fault} (h : MemoryKey.ofDatum key = .error f) :
    s.perform (.press key display) = (.error f, s) := by
  have hpress : s.memory.pressData key display = .error f := by rw [Memory.pressData, h]; rfl
  simp only [perform, press, hpress]
  rfl

/-- An operation that fails leaves the session as it was, but for the count of misses. -/
theorem Faithful.after_of_failure (hs : s.Faithful) {op : Operation} (h : Answer.Failure (s.perform op).1) :
    s.after op = { s with misses := s.misses + op.failedLookups } := by
  cases op with
  | evaluate expression =>
    rcases (s.query expression).result_cases with ⟨x, hx⟩ | ⟨e, he⟩
    · have hvalue : (s.perform (.evaluate expression)).1 = .ok (.value x) := by
        simp only [perform, hs.evaluate_eq_result, hx]
        rfl
      rw [hvalue] at h
      cases h
    · simp only [Session.after, perform, (hs.evaluate_of_error he).2]
      rfl
  | submit expression =>
    rcases hs.submits expression with ⟨x, -, hsubmit⟩ | ⟨e, he, -⟩
    · have hvalue : (s.perform (.submit expression)).1 = .ok (.submission ⟨expression, .ok x⟩) := by
        simp only [perform, hsubmit]
        rfl
      rw [hvalue] at h
      cases h
    · simp only [Session.after, perform, hs.submit_of_error he]
      rfl
  | batch expressions =>
    obtain ⟨log, hbatch⟩ := hs.batch expressions
    have hrows : (s.perform (.batch expressions)).1 = .ok (.rows (s.rows expressions)) := by
      simp only [perform, hbatch]
      rfl
    rw [hrows] at h
    cases h
  | setMode given =>
    cases hmode : AngleMode.ofDatum given with
    | ok mode =>
      simp only [perform, hmode] at h
      cases h
    | error f =>
      rw [Session.after, setMode_of_error hmode]
      rfl
  | press key display =>
    cases hpress : s.memory.pressData key display with
    | ok pressed =>
      simp only [perform, press, hpress] at h
      cases h
    | error f =>
      simp only [Session.after, perform, press, hpress]
      rfl
  | addToMemory given | subtractFromMemory given =>
    cases hgiven : given.toDouble? with
    | ok x =>
      simp only [perform, changeMemory, hgiven] at h
      cases h
    | error f =>
      simp only [Session.after, perform, changeMemory, hgiven]
      rfl
  | recallEntry position => rfl
  | toggleMode | setPartially | clearCache | clearMemory | readMemory | readHistory | clearHistory => cases h

/-- After any operations, an operation that fails leaves the session as it was but for the count of misses. An
expression without a value is not in the cache and fails as a miss, whether it is evaluated or submitted; an
unknown mode, an unknown memory key and a position outside the history change nothing. The expression fails alike
after whatever is done next, such as evaluating it under the other flag, once the mode and the flag are as before. -/
theorem failures_after_run {mode historySize cacheSize : Datum} {partially : Bool} {s₀ : Session}
    (h : create mode historySize cacheSize (.bool partially) = .ok s₀) (hsize : cacheSize.IsNonnegative)
    (ops : List Operation) :
    let s := s₀.run ops
    (∀ op, Answer.Failure (s.perform op).1 → s.after op = { s with misses := s.misses + op.failedLookups }) ∧
    (∃ b, s.partially = .bool b ∧ ∀ expression f, Reckoner.evaluate s.mode b expression = .error f →
      (s.query expression).key ∉ s.keys ∧ s.evaluate expression = (.error f, s.missed) ∧
      ∃ e, f = .evaluation e ∧ s.submit expression = (.ok ⟨expression, .error e⟩, s.missed)) ∧
    (∀ given f, AngleMode.ofDatum given = .error f → s.perform (.setMode given) = (.error f, s)) ∧
    (∀ key display f, MemoryKey.ofDatum key = .error f → s.perform (.press key display) = (.error f, s)) ∧
    (∀ i : Int, i < 0 ∨ s.history.entries.length ≤ i →
      s.perform (.recallEntry (.int i)) = (.error (.noHistoryEntry (.int i)), s)) ∧
    ∀ expression f (more : List Operation), (s.evaluate expression).1 = .error f →
      let s' := s.run more
      s'.mode = s.mode → s'.partially = s.partially →
        s'.evaluate expression = (.error f, s'.missed) ∧
        ∃ e, f = .evaluation e ∧ s'.submit expression = (.ok ⟨expression, .error e⟩, s'.missed) := by
  intro s
  have hs : s.Faithful := (faithful_create h hsize).run ops
  obtain ⟨b, hb⟩ := hs.boolean
  refine ⟨fun op => hs.after_of_failure, ⟨b, hb, fun expression f hf => ?_⟩, fun given f => setMode_of_error,
    fun key display f => press_of_error, fun i => recallEntry_outside, fun expression f more hf => ?_⟩
  · have hresult : (s.query expression).result = .error f := by rw [query_eq hb]; exact hf
    obtain ⟨hunknown, hevaluate⟩ := hs.evaluate_of_error hresult
    exact ⟨hunknown, hevaluate, hs.exists_submit_of_error hresult⟩
  · intro s' hmode hflag
    have hs' : s'.Faithful := hs.run more
    have hresult : (s'.query expression).result = .error f := by
      rw [query_congr hmode hflag, ← hs.evaluate_eq_result, hf]
    exact ⟨(hs'.evaluate_of_error hresult).2, hs'.exists_submit_of_error hresult⟩

/-- Two numbers side by side have a value only under the flag for partial evaluation, and that the cache has it
under this flag does not help them under the other. -/
theorem failures_after_run_of_partial :
    ∃ s₀, create (.text "radian") (.int 2) (.int 3) (.bool false) = .ok s₀ ∧ Datum.IsNonnegative (.int 3) ∧
      let s := s₀.run [.submit "1", .setMode (.text "radian"), .setPartially false]
      let more := [.setPartially true, .evaluate "1 2", .setMode (.text "radian"), .setPartially false]
      let e : EvaluationError := .leftover 2
      s.evaluate "1 2" = (.error (.evaluation e), s.missed) ∧
      s.perform (.setMode (.text "grad")) = (.error (.unknownMode (.text "grad")), s) ∧
      s.perform (.press (.text "m*") (.text "1")) = (.error (.unknownMemoryKey (.text "m*")), s) ∧
      s.perform (.recallEntry (.int (-1))) = (.error (.noHistoryEntry (.int (-1))), s) ∧
      CacheKey.mk "1 2" .radian (.int 1) ∈ (s.run more).keys ∧
      (s.run more).evaluate "1 2" = (.error (.evaluation e), (s.run more).missed) := by
  let s₀ : Session := ⟨.radian, .bool false, .ofBound (.atMost 2), .empty, .bound (.atMost 3), [], 0, 0⟩
  have hcreate : create (.text "radian") (.int 2) (.int 3) (.bool false) = .ok s₀ := rfl
  have hsize : Datum.IsNonnegative (.int 3) := ⟨.int 3, 1, rfl, rfl, by decide⟩
  obtain ⟨-, ⟨b, hb, hfails⟩, hmode, hkey, hrecall, hagain⟩ :=
    failures_after_run hcreate hsize [.submit "1", .setMode (.text "radian"), .setPartially false]
  obtain rfl : false = b := Datum.bool.inj hb
  have hresult : (Query.mk "1 2" .radian false).result = .error (.evaluation (.leftover 2)) :=
    Query.error?_eq_some_iff.1 (by decide +kernel)
  have hevaluate := (hfails "1 2" _ hresult).2.1
  refine ⟨s₀, hcreate, hsize, hevaluate, hmode _ _ rfl, hkey _ _ _ rfl, hrecall _ (.inl (by decide)), ?_, ?_⟩
  · decide +kernel
  · exact (hagain "1 2" _ [.setPartially true, .evaluate "1 2", .setMode (.text "radian"), .setPartially false]
      (congrArg Prod.fst hevaluate) rfl rfl).1

end Session

end Reckoner
