import Reckoner.Proofs.Agreement
import Reckoner.Proofs.Arrangement
/-!
# What the angle mode has to do with

Only trigonometric functions look at the mode, so a text without one comes to the same in both. With them the values
can differ, and so can the arguments of factorials, but not what is done to the stack: run side by side in two modes,
a sequence keeps stacks of one height (`alike_foldlM`) and stops on the same error in both, unless a bad factorial
stops one of them before.
-/

namespace Reckoner

open Postfix

/-! ## Side by side -/

/-- Two results that fail alike or are related values, unless a bad factorial stops one of them. -/
inductive Alike {α : Type} (related : α → α → Prop) : (r r' : Except EvaluationError α) → Prop
  | values {x y : α} (h : related x y) : Alike related (.ok x) (.ok y)
  | failures (err : EvaluationError) : Alike related (.error err) (.error err)
  | invalid_left {err : EvaluationError} (kind : err.kind = .invalidArgument) (r : Except EvaluationError α) :
      Alike related (.error err) r
  | invalid_right {err : EvaluationError} (kind : err.kind = .invalidArgument) (r : Except EvaluationError α) :
      Alike related r (.error err)

theorem Alike.bind {α β : Type} {related : α → α → Prop} {related' : β → β → Prop}
    {r r' : Except EvaluationError α} (h : Alike related r r') {f g : α → Except EvaluationError β}
    (hfg : ∀ x y, related x y → Alike related' (f x) (g y)) : Alike related' (r >>= f) (r' >>= g) := by
  cases h with
  | values h => exact hfg _ _ h
  | failures err => exact .failures err
  | invalid_left kind => exact .invalid_left kind _
  | invalid_right kind => exact .invalid_right kind _

theorem Alike.of_computes {r r' : Except EvaluationError Double} (h : Computes r) (h' : Computes r') :
    Alike (fun _ _ => True) r r' := by
  rcases h with ⟨x, rfl⟩ | ⟨err, rfl, kind⟩
  · rcases h' with ⟨y, rfl⟩ | ⟨err, rfl, kind⟩
    · exact .values trivial
    · exact .invalid_right kind _
  · exact .invalid_left kind _

theorem computes_apply (op : Operator) (mode : AngleMode) (a b : Double) : Computes (op.apply mode a b) := by
  cases h : op.apply mode a b with
  | ok x => exact .inl ⟨x, rfl⟩
  | error err => exact .inr ⟨err, rfl, kind_of_apply h⟩

theorem alike_applyNamed (name : String) (mode mode' : AngleMode) (a b a' b' : Double) :
    Alike (fun _ _ => True) (applyNamed name mode a b) (applyNamed name mode' a' b') := by
  unfold applyNamed
  cases Operator.named? name with
  | none => exact .failures _
  | some op => exact .of_computes (computes_apply op mode a b) (computes_apply op mode' a' b')

/-! ## Sequences -/

/-- Stacks that differ at most in their values. -/
def SameHeight (stack stack' : List Double) : Prop := stack.length = stack'.length

section
variable {mode mode' : AngleMode} {stack stack' : List Double}

theorem alike_push (hheight : SameHeight stack stack') {r r' : Except EvaluationError Double}
    (h : Alike (fun _ _ => True) r r') : Alike SameHeight ((· :: stack) <$> r) ((· :: stack') <$> r') :=
  h.bind fun _ _ _ => .values (congrArg (· + 1) hheight)

/-- Whatever a token is, it finds its operands in both stacks or in none. -/
theorem alike_evaluateToken (hheight : SameHeight stack stack') (t : Token) :
    Alike SameHeight (evaluateToken mode stack t) (evaluateToken mode' stack' t) := by
  unfold evaluateToken
  split
  · exact .values (congrArg (· + 1) hheight)
  split
  · match stack, stack', hheight with
    | [], [], _ => exact .failures _
    | b :: stack, b' :: stack', hheight =>
      exact alike_push (Nat.succ.inj hheight) (alike_applyNamed t.name mode mode' b b b' b')
  · match stack, stack', hheight with
    | [], [], _ => exact .failures _
    | [_], [_], _ => exact .failures _
    | b :: a :: stack, b' :: a' :: stack', hheight =>
      exact alike_push (Nat.succ.inj (Nat.succ.inj hheight)) (alike_applyNamed t.name mode mode' a b a' b')

theorem alike_foldlM (hheight : SameHeight stack stack') (ps : List Token) :
    Alike SameHeight (ps.foldlM (evaluateToken mode) stack) (ps.foldlM (evaluateToken mode') stack') := by
  induction ps generalizing stack stack' with
  | nil => exact .values hheight
  | cons t ps ih =>
    rw [List.foldlM_cons, List.foldlM_cons]
    exact (alike_evaluateToken hheight t).bind fun _ _ h => ih h

/-- Whether a stack answers depends on its height. -/
theorem alike_answer (hheight : SameHeight stack stack') (partially : Bool) :
    Alike (fun _ _ => True) (answer partially stack) (answer partially stack') := by
  unfold SameHeight at hheight
  unfold answer
  match stack, stack', hheight with
  | [], [], _ => exact .failures _
  | x :: stack, y :: stack', hheight =>
    rw [List.getLast?_cons, List.getLast?_cons, hheight]
    dsimp only
    split
    · exact .failures _
    · exact .values trivial

theorem alike_evaluatePostfix (mode mode' : AngleMode) (partially : Bool) (ps : List Token) :
    Alike (fun _ _ => True) (evaluatePostfix mode partially ps) (evaluatePostfix mode' partially ps) :=
  (alike_foldlM rfl ps).bind fun _ _ h => alike_answer h partially

end

/-! ## Texts -/

def Operator.isTrigonometric : Operator → Bool
  | function f => f.isTrigonometric
  | binary _ | negation => false

theorem Operator.apply_of_not_trigonometric {op : Operator} (h : op.isTrigonometric = false)
    (mode mode' : AngleMode) (a b : Double) : op.apply mode a b = op.apply mode' a b := by
  rcases op with op | _ | f
  · rfl
  · rfl
  · cases f with
    | sin | cos | tan | asin | acos | atan => cases h
    | log | ln | sqrt | fact => rfl

/-- A number, or an operator that is not trigonometric. -/
def Token.IgnoresMode (t : Token) : Prop :=
  t.type = .number ∨ ∃ op : Operator, t = op.token ∧ op.isTrigonometric = false

theorem Token.IgnoresMode.evaluateToken {t : Token} (h : t.IgnoresMode) (mode mode' : AngleMode)
    (stack : List Double) : evaluateToken mode stack t = evaluateToken mode' stack t := by
  rcases h with h | ⟨op, rfl, hop⟩
  · rw [evaluateToken_number h, evaluateToken_number h]
  · simp only [Reckoner.evaluateToken, Operator.token_name, applyNamed_name,
      op.apply_of_not_trigonometric hop mode mode']

theorem evaluatePostfix_of_ignoresMode {ps : List Token} (hps : ∀ t ∈ ps, t.IgnoresMode) (mode mode' : AngleMode)
    (partially : Bool) : evaluatePostfix mode partially ps = evaluatePostfix mode' partially ps := by
  have hfold : ∀ stack, ps.foldlM (evaluateToken mode) stack = ps.foldlM (evaluateToken mode') stack := by
    induction ps with
    | nil => exact fun _ => rfl
    | cons t ps ih =>
      intro stack
      rw [List.forall_mem_cons] at hps
      simp only [List.foldlM_cons, hps.1.evaluateToken mode mode', ih hps.2]
  rw [evaluatePostfix, evaluatePostfix, hfold]

/-- An operator of a text is a function that is named in it, or no function. -/
theorem ignoresMode_of_mem_written {ls : List Lexeme}
    (hls : ∀ f : Func, f.isTrigonometric → Lexeme.symbol (.function f) ∉ ls) {due : Bool} {t : Token}
    (ht : t ∈ written due ls) : t.IgnoresMode := by
  induction ls generalizing due with
  | nil => cases ht
  | cons l ls ih =>
    have hl : ∀ f : Func, f.isTrigonometric → l ≠ .symbol (.function f) := fun f hf h =>
      hls f hf (h ▸ List.mem_cons_self)
    rw [written, List.mem_append, List.mem_append] at ht
    rcases ht with (ht | ht) | ht
    · obtain ⟨a, -, rfl⟩ : ∃ a, l.operand? = some a ∧ a.token = t := by simpa using ht
      exact .inl a.token_type
    · obtain ⟨op, hop, rfl⟩ : ∃ op, l.operator? due = some op ∧ op.token = t := by simpa using ht
      refine .inr ⟨op, rfl, ?_⟩
      rcases l with n | _ | _ | op' | f | c
      case symbol.binary =>
        obtain rfl := Option.some.inj hop
        split <;> rfl
      case symbol.function =>
        obtain rfl := Option.some.inj hop
        exact Bool.eq_false_iff.2 fun hf => hl f hf rfl
      all_goals cases hop
    · exact ih (fun f hf h => hls f hf (List.mem_cons_of_mem _ h)) ht

theorem evaluate_of_not_trigonometric {text : String}
    (h : ∀ f : Func, f.isTrigonometric → (Symbol.function f).token ∉ tokenize text) (mode mode' : AngleMode)
    (partially : Bool) : evaluate mode partially text = evaluate mode' partially text := by
  have hls : ∀ f : Func, f.isTrigonometric → Lexeme.symbol (.function f) ∉ Lexeme.scan text.toList :=
    fun f hf hmem => h f hf (List.mem_map_of_mem hmem)
  unfold evaluate
  cases hps : ofTokens (tokenize text) with
  | error f => rfl
  | ok ps =>
    have hperm : ps.Perm (written true (Lexeme.scan text.toList)) :=
      contents_eq_written none (Lexeme.scan text.toList) ▸ ofTokens_perm hps
    have hps' : ∀ t ∈ ps, t.IgnoresMode := fun t ht => ignoresMode_of_mem_written hls (hperm.subset ht)
    rw [ok_bind, ok_bind, evaluatePostfix_of_ignoresMode hps' mode mode']

/-- A text without trigonometric functions comes to the same in both modes. Any sequence whatever, if it has a value
in one mode, has one in the other or stops there on a bad factorial; and if it fails in one mode on anything else, it
fails alike in the other or stops there on a bad factorial. -/
theorem modes_differ_in_trigonometry :
    (∀ text : String, (∀ f : Func, f.isTrigonometric → (Symbol.function f).token ∉ tokenize text) →
      ∀ partially, evaluate .radian partially text = evaluate .degree partially text) ∧
    ∀ (ps : List Token) (partially : Bool) (mode mode' : AngleMode),
      (∀ x, evaluatePostfix mode partially ps = .ok x → Computes (evaluatePostfix mode' partially ps)) ∧
      ∀ err, evaluatePostfix mode partially ps = .error err → err.kind ≠ .invalidArgument →
        evaluatePostfix mode' partially ps = .error err ∨
          ∃ err', evaluatePostfix mode' partially ps = .error err' ∧ err'.kind = .invalidArgument := by
  refine ⟨fun text h partially => evaluate_of_not_trigonometric h .radian .degree partially,
    fun ps partially mode mode' => ?_⟩
  have halike := alike_evaluatePostfix mode mode' partially ps
  generalize evaluatePostfix mode partially ps = r, evaluatePostfix mode' partially ps = r' at halike
  cases halike with
  | @values x y =>
    exact ⟨fun _ _ => .inl ⟨y, rfl⟩, fun _ h => (nomatch h)⟩
  | failures err => exact ⟨fun _ h => (nomatch h), fun _ h _ => .inl h⟩
  | invalid_left kind =>
    refine ⟨fun _ h => (nomatch h), fun err h hkind => ?_⟩
    cases h
    exact absurd kind hkind
  | @invalid_right err kind => exact ⟨fun _ _ => .inr ⟨err, rfl, kind⟩, fun _ _ _ => .inr ⟨err, rfl, kind⟩⟩

/-- The sine of 90 has a factorial in degrees only, and there is a logarithm in both modes. -/
theorem modes_differ_in_trigonometry_of_sine :
    let text := "fact(2)-log(7) e"
    let ps := [.number (.ofNat 90) none, (Operator.function .sin).token, (Operator.function .fact).token]
    let ps' := ps ++ [.number (.ofNat 2) none]
    (∀ f : Func, f.isTrigonometric → (Symbol.function f).token ∉ tokenize text) ∧
    (∀ partially, evaluate .radian partially text = evaluate .degree partially text) ∧
    evaluatePostfix .degree false ps = .ok (.ofNat 1) ∧ Computes (evaluatePostfix .radian false ps) ∧
    evaluatePostfix .degree false ps' = .error (.leftover 2) ∧
    (evaluatePostfix .radian false ps' = .error (.leftover 2) ∨
      ∃ err, evaluatePostfix .radian false ps' = .error err ∧ err.kind = .invalidArgument) := by
  intro text ps ps'
  have htext : ∀ f : Func, f.isTrigonometric → (Symbol.function f).token ∉ tokenize text := by
    have hall : ∀ f ∈ Func.all, f.isTrigonometric → (Symbol.function f).token ∉ tokenize text := by decide +kernel
    intro f
    exact hall f (by cases f <;> decide)
  have hvalue : evaluatePostfix .degree false ps = .ok (.ofNat 1) := toOption_eq_some_iff.1 (by decide +kernel)
  have hleftover : evaluatePostfix .degree false ps' = .error (.leftover 2) :=
    failure?_eq_some_iff.1 (by decide +kernel)
  exact ⟨htext, modes_differ_in_trigonometry.1 text htext, hvalue,
    (modes_differ_in_trigonometry.2 ps false .degree .radian).1 _ hvalue, hleftover,
    (modes_differ_in_trigonometry.2 ps' false .degree .radian).2 _ hleftover (by decide)⟩

end Reckoner
