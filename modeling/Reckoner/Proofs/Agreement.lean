import Reckoner.Proofs.Conversion
/-!
# Depth and evaluation agree

The depth of a postfix sequence and its evaluation go over the tokens side by side: as long as there is a
depth, it is the height of the stack of values, and an evaluation that stops although there is one stops on
a bad factorial (`fits_foldlM`). That holds of all tokens known by name, also of those that have no place
in postfix order.

So a sequence of depth one computes (`Computes`), any other one fails if the whole of it is wanted, and a
text computes exactly where its structure is complete, up to bad factorials.
-/

namespace Reckoner

open Postfix

namespace Token

/-- A number, or any token that is known by name. -/
def IsKnown (t : Token) : Prop := t.type = .number ∨ t ∈ predefined

/-- A parenthesis or a constant: what conversion does not leave in a sequence. -/
def IsUnconverted (t : Token) : Prop := t.type = .leftParen ∨ t.type = .rightParen ∨ t.type = .constant

theorem IsPlain.isKnown {t : Token} (h : t.IsPlain) : t.IsKnown := h.imp id And.left

theorem IsPlain.not_isUnconverted {t : Token} (h : t.IsPlain) : ¬ t.IsUnconverted := by
  rcases isPlain_iff.1 h with h | ⟨op, rfl⟩
  · simp [IsUnconverted, h]
  · rcases op.token_type with h | h <;> simp [IsUnconverted, h]

theorem IsKnown.cases {t : Token} (h : t.IsKnown) :
    t.type = .number ∨ (∃ op : Operator, t = op.token) ∨
      (t.IsUnconverted ∧ t.arity = 0 ∧ Operator.named? t.name = none) := by
  rcases h with h | h
  · exact .inl h
  · rcases mem_predefined.1 h with h | rfl | rfl | ⟨c, rfl⟩
    · exact .inr (.inl h)
    · exact .inr (.inr ⟨.inl rfl, rfl, by decide +kernel⟩)
    · exact .inr (.inr ⟨.inr (.inl rfl), rfl, by decide +kernel⟩)
    · exact .inr (.inr ⟨.inr (.inr rfl), rfl, by cases c <;> decide +kernel⟩)

end Token

/-! ## One token -/

/-- What a token does to a stack of values, and what it does to the depth at once. -/
inductive Step (mode : AngleMode) (stack : List Double) (t : Token) : Prop
  | value {stack' : List Double} (result : evaluateToken mode stack t = .ok stack')
      (depth : ∀ ts, depthFrom? stack.length (t :: ts) = depthFrom? stack'.length ts)
  | invalid {err : EvaluationError} (result : evaluateToken mode stack t = .error err)
      (kind : err.kind = .invalidArgument) {d : Int} (depth : depthFrom? stack.length [t] = some d) (pos : 1 ≤ d)
  | underflow {err : EvaluationError} (result : evaluateToken mode stack t = .error err)
      (kind : err.kind = .stackUnderflow) (depth : ∀ ts, depthFrom? stack.length (t :: ts) = none)
  | unknown {err : EvaluationError} (result : evaluateToken mode stack t = .error err)
      (kind : err.kind = .unknownOperator) (depth : ∀ ts, depthFrom? stack.length (t :: ts) = none)
      (unconverted : t.IsUnconverted)

theorem kind_of_apply {op : Operator} {mode : AngleMode} {x y : Double} {err : EvaluationError}
    (h : op.apply mode x y = .error err) : err.kind = .invalidArgument := by
  cases op with
  | binary op => cases h
  | negation => cases h
  | function f =>
    have hf : failure? ((Operator.function f).apply mode x x) = some err := failure?_eq_some_iff.2 h
    rw [failure?_apply_function] at hf
    split at hf
    · cases hf; rfl
    · cases hf

theorem Step.unary (op : Operator) (harity : op.arity = 1) (mode : AngleMode) (stack : List Double) :
    Step mode stack op.token := by
  cases stack with
  | nil =>
    have hresult : evaluateToken mode [] op.token = .error (.missingOperand op.name) := by
      simp [evaluateToken, harity]
    exact .underflow hresult rfl fun ts => by simp [depthFrom?_operator, harity]
  | cons x stack =>
    have hdepth : ∀ ts, depthFrom? (x :: stack).length (op.token :: ts) = depthFrom? (stack.length + 1) ts := by
      intro ts
      rw [depthFrom?_operator, if_neg (by simp [harity])]
      simp [harity]
    have hresult := evaluateToken_unary op harity mode x stack
    rw [applyNamed_name] at hresult
    cases hx : op.apply mode x x with
    | ok y =>
      rw [hx, Except.map_ok] at hresult
      exact .value hresult (by simpa using hdepth)
    | error err =>
      rw [hx, Except.map_error] at hresult
      exact .invalid hresult (kind_of_apply hx) (hdepth []) (by omega)

theorem Step.binary (op : BinaryOp) (mode : AngleMode) (stack : List Double) :
    Step mode stack (Operator.binary op).token := by
  have lacking : stack.length < 2 → Step mode stack (Operator.binary op).token := by
    intro hlen
    have hresult : evaluateToken mode stack (Operator.binary op).token =
        .error (.missingOperand (Operator.binary op).name) := by
      rcases stack with _ | ⟨y, _ | ⟨x, stack⟩⟩
      · simp [evaluateToken, Operator.arity]
      · simp [evaluateToken, Operator.arity]
      · simp only [List.length_cons] at hlen
        omega
    exact .underflow hresult rfl fun ts => by
      rw [depthFrom?_operator, if_pos (by simp only [Operator.arity]; omega)]
  rcases stack with _ | ⟨y, _ | ⟨x, stack⟩⟩
  · exact lacking (by simp)
  · exact lacking (by simp)
  · have hresult := evaluateToken_binary op mode x y stack
    rw [applyNamed_name, Operator.apply, Except.map_ok] at hresult
    refine .value hresult fun ts => ?_
    rw [depthFrom?_operator, if_neg (by simp only [List.length_cons, Operator.arity]; omega)]
    congr 1
    simp [Operator.arity]
    omega

/-- Every token known by name does to a stack what it does to the depth. -/
theorem Step.of_known {t : Token} (ht : t.IsKnown) (mode : AngleMode) (stack : List Double) :
    Step mode stack t := by
  rcases ht.cases with ht | ⟨op | _ | f, rfl⟩ | ⟨ht, harity, hname⟩
  · exact .value (evaluateToken_number ht mode stack) fun ts => by simp [depthFrom?_number ht]
  · exact .binary op mode stack
  · exact .unary .negation rfl mode stack
  · exact .unary (.function f) rfl mode stack
  · have hdepth : ∀ ts, depthFrom? stack.length (t :: ts) = none := by
      intro ts
      rcases ht with h | h | h <;> simp [depthFrom?, h]
    have hnumber : t.type ≠ .number := by rcases ht with h | h | h <;> simp [h]
    have harity : t.arity ≠ 1 := by omega
    rcases stack with _ | ⟨y, _ | ⟨x, stack⟩⟩
    · have hresult : evaluateToken mode [] t = .error (.missingOperand t.name) := by
        simp [evaluateToken, hnumber, harity]
      exact .underflow hresult rfl hdepth
    · have hresult : evaluateToken mode [y] t = .error (.missingOperand t.name) := by
        simp [evaluateToken, hnumber, harity]
      exact .underflow hresult rfl hdepth
    · have hresult : evaluateToken mode (y :: x :: stack) t = .error (.unknownOperator t.name) := by
        simp [evaluateToken, hnumber, harity, applyNamed, hname]
      exact .unknown hresult rfl hdepth ht

/-! ## Sequences -/

/-- How the result of a sequence fits its depth, where only what is unconverted may be unknown. -/
inductive Fits (unconverted : Prop) : Option Int → Except EvaluationError (List Double) → Prop
  | values {stack : List Double} : Fits unconverted (some stack.length) (.ok stack)
  | invalid {depth : Option Int} {err : EvaluationError} (kind : err.kind = .invalidArgument) :
      Fits unconverted depth (.error err)
  | underflow {err : EvaluationError} (kind : err.kind = .stackUnderflow) : Fits unconverted none (.error err)
  | unknown {err : EvaluationError} (kind : err.kind = .unknownOperator) (h : unconverted) :
      Fits unconverted none (.error err)

theorem Fits.mono {P Q : Prop} (hpq : P → Q) {depth : Option Int} {r : Except EvaluationError (List Double)}
    (h : Fits P depth r) : Fits Q depth r := by
  cases h with
  | values => exact .values
  | invalid kind => exact .invalid kind
  | underflow kind => exact .underflow kind
  | unknown kind h => exact .unknown kind (hpq h)

theorem foldlM_cons_ok {mode : AngleMode} {stack stack' : List Double} {t : Token}
    (h : evaluateToken mode stack t = .ok stack') (ps : List Token) :
    (t :: ps).foldlM (evaluateToken mode) stack = ps.foldlM (evaluateToken mode) stack' := by
  rw [List.foldlM_cons, h, ok_bind]

theorem foldlM_cons_error {mode : AngleMode} {stack : List Double} {t : Token} {err : EvaluationError}
    (h : evaluateToken mode stack t = .error err) (ps : List Token) :
    (t :: ps).foldlM (evaluateToken mode) stack = .error err := by
  rw [List.foldlM_cons, h, error_bind]

theorem fits_foldlM (mode : AngleMode) {ps : List Token} (hps : ∀ t ∈ ps, t.IsKnown) (stack : List Double) :
    Fits (∃ t ∈ ps, t.IsUnconverted) (depthFrom? stack.length ps) (ps.foldlM (evaluateToken mode) stack) := by
  induction ps generalizing stack with
  | nil => exact .values
  | cons t ps ih =>
    cases Step.of_known (hps t List.mem_cons_self) mode stack with
    | value result depth =>
      rw [foldlM_cons_ok result, depth]
      exact (ih (fun t ht => hps t (List.mem_cons_of_mem _ ht)) _).mono fun ⟨u, hu, h⟩ =>
        ⟨u, List.mem_cons_of_mem _ hu, h⟩
    | invalid result kind =>
      rw [foldlM_cons_error result]
      exact .invalid kind
    | underflow result kind depth =>
      rw [foldlM_cons_error result, depth]
      exact .underflow kind
    | unknown result kind depth h =>
      rw [foldlM_cons_error result, depth]
      exact .unknown kind ⟨t, List.mem_cons_self, h⟩

theorem fits_depth (mode : AngleMode) {ps : List Token} (hps : ∀ t ∈ ps, t.IsKnown) :
    Fits (∃ t ∈ ps, t.IsUnconverted) (depth? ps) (ps.foldlM (evaluateToken mode) []) :=
  fits_foldlM mode hps []

/-- A bad factorial that stops a sequence also stops a part of it that has a depth. -/
theorem exists_prefix_of_invalid {mode : AngleMode} {ps : List Token} (hps : ∀ t ∈ ps, t.IsKnown)
    {stack : List Double} {err : EvaluationError} (h : ps.foldlM (evaluateToken mode) stack = .error err)
    (kind : err.kind = .invalidArgument) :
    ∃ us, us <+: ps ∧ (∃ d, depthFrom? stack.length us = some d ∧ 1 ≤ d) ∧
      us.foldlM (evaluateToken mode) stack = .error err := by
  induction ps generalizing stack with
  | nil => cases h
  | cons t ps ih =>
    cases Step.of_known (hps t List.mem_cons_self) mode stack with
    | value result depth =>
      rw [foldlM_cons_ok result] at h
      obtain ⟨us, hus, hdepth, herr⟩ := ih (fun t ht => hps t (List.mem_cons_of_mem _ ht)) h
      refine ⟨t :: us, List.cons_prefix_cons.2 ⟨rfl, hus⟩, ?_, ?_⟩
      · rwa [depth]
      · rwa [foldlM_cons_ok result]
    | invalid result kind' depth pos =>
      rw [foldlM_cons_error result] at h
      refine ⟨[t], by simp, ⟨_, depth, pos⟩, ?_⟩
      rw [foldlM_cons_error result, h]
    | underflow result kind' =>
      rw [foldlM_cons_error result] at h
      cases h
      rw [kind] at kind'
      cases kind'
    | unknown result kind' =>
      rw [foldlM_cons_error result] at h
      cases h
      rw [kind] at kind'
      cases kind'

/-! ## Results -/

/-- A value comes out, or a bad factorial stops the evaluation. -/
def Computes (r : Except EvaluationError Double) : Prop :=
  (∃ x, r = .ok x) ∨ ∃ err, r = .error err ∧ err.kind = .invalidArgument

theorem answer_singleton (partially : Bool) (x : Double) : answer partially [x] = .ok x := by
  simp [answer]

theorem answer_partially {stack : List Double} (h : stack ≠ []) : ∃ x, answer true stack = .ok x := by
  refine ⟨stack.getLast h, ?_⟩
  simp [answer, List.getLast?_eq_some_getLast h]

theorem answer_error {partially : Bool} {stack : List Double} {err : EvaluationError}
    (h : answer partially stack = .error err) : err.kind = .malformedExpression ∧ stack.length ≠ 1 := by
  unfold answer at h
  split at h
  · next hlast =>
    cases h
    rw [List.getLast?_eq_none_iff.1 hlast]
    exact ⟨rfl, by simp⟩
  · split at h
    · next hmany =>
      cases h
      simp only [Bool.and_eq_true, decide_eq_true_eq] at hmany
      exact ⟨rfl, by omega⟩
    · cases h

theorem answer_whole {stack : List Double} (h : stack.length ≠ 1) : ∃ err, answer false stack = .error err := by
  rcases stack with _ | ⟨y, _ | ⟨x, stack⟩⟩
  · exact ⟨_, rfl⟩
  · exact absurd rfl h
  · exact ⟨.leftover (y :: x :: stack).length, by simp [answer, List.getLast?_cons]⟩

section
variable {mode : AngleMode} {partially : Bool} {ps : List Token}

/-- With a depth the evaluation answers from that many values, unless a factorial stops it. -/
theorem evaluatePostfix_of_depth (mode : AngleMode) (partially : Bool) (hps : ∀ t ∈ ps, t.IsKnown) {d : Int}
    (hdepth : depth? ps = some d) :
    (∃ stack : List Double, (stack.length : Int) = d ∧
      evaluatePostfix mode partially ps = answer partially stack) ∨
    ∃ err, evaluatePostfix mode partially ps = .error err ∧ err.kind = .invalidArgument := by
  have hfits := fits_depth mode hps
  rw [hdepth] at hfits
  unfold evaluatePostfix
  generalize hfold : ps.foldlM (evaluateToken mode) [] = result at hfits
  cases hfits with
  | values => exact .inl ⟨_, rfl, rfl⟩
  | invalid kind => exact .inr ⟨_, rfl, kind⟩

/-- Without a depth it fails, and not on an unknown operator unless that has no place there. -/
theorem evaluatePostfix_of_no_depth (mode : AngleMode) (partially : Bool) (hps : ∀ t ∈ ps, t.IsKnown)
    (hdepth : depth? ps = none) :
    ∃ err, evaluatePostfix mode partially ps = .error err ∧
      (err.kind = .stackUnderflow ∨ err.kind = .invalidArgument ∨
        (err.kind = .unknownOperator ∧ ∃ t ∈ ps, t.IsUnconverted)) := by
  have hfits := fits_depth mode hps
  rw [hdepth] at hfits
  unfold evaluatePostfix
  generalize hfold : ps.foldlM (evaluateToken mode) [] = result at hfits
  cases hfits with
  | invalid kind => exact ⟨_, rfl, .inr (.inl kind)⟩
  | underflow kind => exact ⟨_, rfl, .inl kind⟩
  | unknown kind h => exact ⟨_, rfl, .inr (.inr ⟨kind, h⟩)⟩

theorem isComplete_iff : isComplete ps = true ↔ depth? ps = some 1 := by
  simp [isComplete]

theorem isComplete_eq_false_iff : isComplete ps = false ↔ depth? ps ≠ some 1 := by
  simp [isComplete]

theorem computes_of_complete (hps : ∀ t ∈ ps, t.IsKnown) (hdepth : depth? ps = some 1) (mode : AngleMode)
    (partially : Bool) : Computes (evaluatePostfix mode partially ps) := by
  rcases evaluatePostfix_of_depth mode partially hps hdepth with ⟨stack, hlen, h⟩ | h
  · obtain ⟨x, rfl⟩ := List.length_eq_one_iff.1 (by omega : stack.length = 1)
    exact .inl ⟨x, h.trans (answer_singleton partially x)⟩
  · exact .inr h

theorem fails_of_incomplete (hps : ∀ t ∈ ps, t.IsKnown) (hdepth : depth? ps ≠ some 1) (mode : AngleMode) :
    ∃ err, evaluatePostfix mode false ps = .error err := by
  cases hd : depth? ps with
  | none =>
    obtain ⟨err, h, -⟩ := evaluatePostfix_of_no_depth mode false hps hd
    exact ⟨err, h⟩
  | some d =>
    rcases evaluatePostfix_of_depth mode false hps hd with ⟨stack, hlen, h⟩ | ⟨err, h, -⟩
    · rw [h]
      refine answer_whole fun hone => hdepth ?_
      rw [hd, ← hlen, hone]
      rfl
    · exact ⟨err, h⟩

theorem computes_partially (hps : ∀ t ∈ ps, t.IsKnown) {d : Int} (hdepth : depth? ps = some d) (hd : 1 ≤ d) :
    Computes (evaluatePostfix mode true ps) := by
  rcases evaluatePostfix_of_depth mode _ hps hdepth with ⟨stack, hlen, h⟩ | h
  · have hne : stack ≠ [] := by
      rintro rfl
      simp only [List.length_nil] at hlen
      omega
    obtain ⟨x, hx⟩ := answer_partially hne
    exact .inl ⟨x, h.trans hx⟩
  · exact .inr h

/-- Only the tokens fail on a factorial, not the answer. -/
theorem evaluatePostfix_invalid_iff {err : EvaluationError} (kind : err.kind = .invalidArgument) :
    evaluatePostfix mode partially ps = .error err ↔ ps.foldlM (evaluateToken mode) [] = .error err := by
  unfold evaluatePostfix
  constructor
  · intro h
    cases hfold : ps.foldlM (evaluateToken mode) [] with
    | ok stack =>
      rw [hfold, ok_bind] at h
      rw [(answer_error h).1] at kind
      cases kind
    | error err' =>
      rw [hfold, error_bind] at h
      cases h
      rfl
  · intro h
    rw [h, error_bind]

/-- What stops a part of a sequence on a factorial stops all of it. -/
theorem evaluatePostfix_prefix {us : List Token} (hus : us <+: ps) {err : EvaluationError}
    (h : evaluatePostfix mode partially us = .error err) (kind : err.kind = .invalidArgument) :
    evaluatePostfix mode partially ps = .error err := by
  obtain ⟨vs, rfl⟩ := hus
  rw [evaluatePostfix_invalid_iff kind] at h ⊢
  rw [List.foldlM_append, h, error_bind]

theorem depth_of_value (hps : ∀ t ∈ ps, t.IsKnown) {x : Double} (hx : evaluatePostfix mode partially ps = .ok x) :
    ∃ d, depth? ps = some d ∧ 1 ≤ d := by
  cases hd : depth? ps with
  | none =>
    obtain ⟨err, herr, -⟩ := evaluatePostfix_of_no_depth mode partially hps hd
    rw [hx] at herr
    cases herr
  | some d =>
    refine ⟨d, rfl, ?_⟩
    rcases evaluatePostfix_of_depth mode partially hps hd with ⟨stack, hlen, h⟩ | ⟨err, herr, -⟩
    · cases stack with
      | nil => rw [hx] at h; cases h
      | cons y stack => simp only [List.length_cons] at hlen; omega
    · rw [hx] at herr
      cases herr

theorem computes_partially_iff (hps : ∀ t ∈ ps, t.IsKnown) :
    Computes (evaluatePostfix mode true ps) ↔
      (∃ d, depth? ps = some d ∧ 1 ≤ d) ∨
      ∃ us, us <+: ps ∧ (∃ d, depth? us = some d ∧ 1 ≤ d) ∧
        ∃ err, evaluatePostfix mode true us = .error err ∧ err.kind = .invalidArgument := by
  constructor
  · rintro (⟨x, hx⟩ | ⟨err, herr, kind⟩)
    · exact .inl (depth_of_value hps hx)
    · obtain ⟨us, hus, hdepth, h⟩ := exists_prefix_of_invalid hps ((evaluatePostfix_invalid_iff kind).1 herr) kind
      exact .inr ⟨us, hus, hdepth, err, (evaluatePostfix_invalid_iff kind).2 h, kind⟩
  · rintro (⟨d, hd, hpos⟩ | ⟨us, hus, -, err, h, kind⟩)
    · exact computes_partially hps hd hpos
    · exact .inr ⟨err, evaluatePostfix_prefix hus h kind, kind⟩

end

/-! ## Texts -/

theorem kind_ne_unknown {mode : AngleMode} {partially : Bool} {ps : List Token} (hps : ∀ t ∈ ps, t.IsPlain)
    {err : EvaluationError} (h : evaluatePostfix mode partially ps = .error err) :
    err.kind ≠ .unknownOperator := by
  have hknown : ∀ t ∈ ps, t.IsKnown := fun t ht => (hps t ht).isKnown
  have hplain : ¬ ∃ t ∈ ps, t.IsUnconverted := fun ⟨t, ht, hu⟩ => (hps t ht).not_isUnconverted hu
  cases hd : depth? ps with
  | none =>
    obtain ⟨err', h', hkind⟩ := evaluatePostfix_of_no_depth mode partially hknown hd
    rw [h] at h'
    cases h'
    rcases hkind with hkind | hkind | ⟨-, hu⟩
    · simp [hkind]
    · simp [hkind]
    · exact absurd hu hplain
  | some d =>
    rcases evaluatePostfix_of_depth mode partially hknown hd with ⟨stack, -, h'⟩ | ⟨err', h', hkind⟩
    · rw [h'] at h
      simp [(answer_error h).1]
    · rw [h] at h'
      cases h'
      simp [hkind]

/-- What a text comes to, and whether its structure is complete, is that of what it is converted to;
otherwise its parentheses do not match. -/
theorem text_cases (text : String) :
    (∃ ps : List Token, (∀ t ∈ ps, t.IsPlain) ∧ isCompleteExpression text = isComplete ps ∧
      ∀ mode partially, evaluate mode partially text = (evaluatePostfix mode partially ps).mapError .evaluation) ∨
    ∃ err : EvaluationError, err.kind = .malformedExpression ∧ isCompleteExpression text = false ∧
      ∀ mode partially, evaluate mode partially text = .error (.evaluation err) := by
  rcases ofTokens_scanned (Lexeme.scan text.toList) with ⟨ps, hps, hplain⟩ | ⟨err, herr, hkind⟩
  · refine .inl ⟨ps, hplain, ?_, fun mode partially => ?_⟩
    · rw [isCompleteExpression, tokenize, hps]
    · rw [evaluate, tokenize, hps, ok_bind]
  · refine .inr ⟨err, hkind, ?_, fun mode partially => ?_⟩
    · rw [isCompleteExpression, tokenize, herr]
    · rw [evaluate, tokenize, herr, error_bind]

section
variable {text : String}

theorem evaluate_of_incomplete (h : isCompleteExpression text = false) (mode : AngleMode) :
    ∃ err, evaluate mode false text = .error (.evaluation err) := by
  rcases text_cases text with ⟨ps, hps, hcomplete, hevaluate⟩ | ⟨err, -, -, hevaluate⟩
  · rw [hcomplete] at h
    obtain ⟨err, herr⟩ := fails_of_incomplete (fun t ht => (hps t ht).isKnown) (isComplete_eq_false_iff.1 h) mode
    exact ⟨err, by rw [hevaluate, herr]; rfl⟩
  · exact ⟨err, hevaluate mode false⟩

theorem evaluate_of_complete (h : isCompleteExpression text = true) (mode : AngleMode) (partially : Bool) :
    (∃ x, evaluate mode partially text = .ok x) ∨
      ∃ err, evaluate mode partially text = .error (.evaluation err) ∧ err.kind = .invalidArgument := by
  rcases text_cases text with ⟨ps, hps, hcomplete, hevaluate⟩ | ⟨err, -, hcomplete, -⟩
  · rw [hcomplete] at h
    rcases computes_of_complete (fun t ht => (hps t ht).isKnown) (isComplete_iff.1 h) mode partially with
      ⟨x, hx⟩ | ⟨err, herr, hkind⟩
    · exact .inl ⟨x, by rw [hevaluate, hx]; rfl⟩
    · exact .inr ⟨err, by rw [hevaluate, herr]; rfl, hkind⟩
  · rw [hcomplete] at h
    cases h

/-- A text fails in no other way than an expression does, and all its operators are known. -/
theorem fault_of_evaluate {mode : AngleMode} {partially : Bool} {fault : Fault}
    (h : evaluate mode partially text = .error fault) :
    ∃ err, fault = .evaluation err ∧ err.kind ≠ .unknownOperator := by
  rcases text_cases text with ⟨ps, hps, -, hevaluate⟩ | ⟨err, hkind, -, hevaluate⟩
  · rw [hevaluate] at h
    cases hresult : evaluatePostfix mode partially ps with
    | ok x => rw [hresult] at h; cases h
    | error err =>
      rw [hresult] at h
      cases h
      exact ⟨err, rfl, kind_ne_unknown hps hresult⟩
  · rw [hevaluate] at h
    cases h
    exact ⟨err, rfl, by simp [hkind]⟩

end

/-- The structure of a sequence or of a text tells whether it computes. A partial evaluation also stops on
a bad factorial in a part of the sequence that has a depth, whatever comes after it. -/
theorem structure_agrees_with_evaluation :
    (∀ ps : List Token, (∀ t ∈ ps, t.IsKnown) → ∀ mode,
      (isComplete ps = true → Computes (evaluatePostfix mode false ps)) ∧
      (isComplete ps = false → ∃ err, evaluatePostfix mode false ps = .error err) ∧
      (∀ x, evaluatePostfix mode true ps = .ok x → ∃ d, depth? ps = some d ∧ 1 ≤ d) ∧
      (Computes (evaluatePostfix mode true ps) ↔
        (∃ d, depth? ps = some d ∧ 1 ≤ d) ∨
        ∃ us, us <+: ps ∧ (∃ d, depth? us = some d ∧ 1 ≤ d) ∧
          ∃ err, evaluatePostfix mode true us = .error err ∧ err.kind = .invalidArgument) ∧
      (depth? ps = none → ∀ partially, ∃ err, evaluatePostfix mode partially ps = .error err ∧
        (err.kind = .stackUnderflow ∨ err.kind = .invalidArgument ∨
          (err.kind = .unknownOperator ∧ ∃ t ∈ ps, t.IsUnconverted)))) ∧
    ∀ text,
      (isCompleteExpression text = false → ∀ mode, ∃ err, evaluate mode false text = .error (.evaluation err)) ∧
      (isCompleteExpression text = true → ∀ mode partially,
        (∃ x, evaluate mode partially text = .ok x) ∨
          ∃ err, evaluate mode partially text = .error (.evaluation err) ∧ err.kind = .invalidArgument) ∧
      ∀ mode partially fault, evaluate mode partially text = .error fault →
        ∃ err, fault = .evaluation err ∧ err.kind ≠ .unknownOperator := by
  refine ⟨fun ps hps mode => ⟨fun h => ?_, fun h => ?_, fun x => depth_of_value hps, computes_partially_iff hps,
    fun h partially => evaluatePostfix_of_no_depth mode partially hps h⟩, fun text => ?_⟩
  · exact computes_of_complete hps (isComplete_iff.1 h) mode false
  · exact fails_of_incomplete hps (isComplete_eq_false_iff.1 h) mode
  · exact ⟨evaluate_of_incomplete, evaluate_of_complete, fun _ _ _ => fault_of_evaluate⟩

/-- An open group on a stack of two numbers is an unknown operator. -/
theorem structure_agrees_open_group :
    let ps := [.number (.ofNat 2) none, .number (.ofNat 3) none, Symbol.openGroup.token]
    (∀ t ∈ ps, t.IsKnown) ∧ isComplete ps = false ∧ depth? ps = none ∧
      ∀ mode partially, ∃ err, evaluatePostfix mode partially ps = .error err ∧
        (err.kind = .stackUnderflow ∨ err.kind = .invalidArgument ∨
          (err.kind = .unknownOperator ∧ ∃ t ∈ ps, t.IsUnconverted)) := by
  intro ps
  have hps : ∀ t ∈ ps, t.IsKnown := by
    simp [ps, Token.IsKnown, Token.number, Token.mem_predefined]
  have hdepth : depth? ps = none := rfl
  exact ⟨hps, rfl, hdepth, fun mode => (structure_agrees_with_evaluation.1 ps hps mode).2.2.2.2 hdepth⟩

/-- The factorial of minus one stops an evaluation before the operator that lacks an operand: it is not
only with a depth of one or more that a partial evaluation computes. -/
theorem not_forall_computes_iff_depth :
    ¬ ∀ ps : List Token, (∀ t ∈ ps, t.IsKnown) → ∀ mode,
      (Computes (evaluatePostfix mode true ps) ↔ ∃ d, depth? ps = some d ∧ 1 ≤ d) := by
  intro h
  let ps : List Token := [.number (.ofInt (-1)) none, (Operator.function .fact).token, (Operator.binary .add).token]
  have hps : ∀ t ∈ ps, t.IsKnown := by
    simp [ps, Token.IsKnown, Token.number, Token.mem_predefined]
  have herr : evaluatePostfix .radian true ps = .error (.badFactorial (.ofInt (-1))) := by
    decide +kernel
  obtain ⟨d, hd, -⟩ := (h ps hps .radian).1 (.inr ⟨_, herr, rfl⟩)
  cases hd

end Reckoner
