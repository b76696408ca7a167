import Mathlib.Control.Monad.Basic
import Reckoner.Evaluation
/-!
# Expressions as trees

The tree that infix text and postfix sequences stand for: `postorder` lists its tokens as a postfix
sequence has them, and `value` computes it by recursion. Only factorials fail in a tree, so the error of
a tree is that of its first bad factorial in post-order (`findSome_subtrees`).
-/

namespace Reckoner

/-! ## Tokens of operators -/

namespace Operator

def token : Operator → Token
  | binary op => (Symbol.binary op).token
  | negation => Token.negation
  | function f => (Symbol.function f).token

@[simp] theorem token_name (op : Operator) : op.token.name = op.name := by cases op <;> rfl

@[simp] theorem token_arity (op : Operator) : op.token.arity = op.arity := by cases op <;> rfl

theorem arity_pos (op : Operator) : 1 ≤ op.arity := by
  cases op <;> simp [arity]

theorem token_type (op : Operator) : op.token.type = .operator ∨ op.token.type = .function := by
  cases op <;> simp [token, Symbol.token, Token.negation]

@[simp] theorem token_ne_number (op : Operator) : op.token.type ≠ .number := by
  rcases op.token_type with h | h <;> simp [h]

theorem mem_all (op : Operator) : op ∈ all := by
  rcases op with op | _ | f
  · cases op <;> decide
  · decide
  · cases f <;> decide

/-- Every operator is found under its name. -/
theorem named?_name (op : Operator) : named? op.name = some op := by
  have found : ∀ op ∈ all, named? op.name = some op := by decide +kernel
  exact found op op.mem_all

theorem token_injective {op op' : Operator} (h : op.token = op'.token) : op = op' := by
  have hn : op.name = op'.name := by simpa using congrArg Token.name h
  have := op.named?_name
  rw [hn, op'.named?_name] at this
  exact (Option.some.inj this).symm

end Operator

theorem applyNamed_name (op : Operator) (mode : AngleMode) (a b : Double) :
    applyNamed op.name mode a b = op.apply mode a b := by
  simp [applyNamed, op.named?_name]

/-! ## Results -/

section
variable {ε α β : Type}

@[simp] theorem ok_bind (a : α) (f : α → Except ε β) : (.ok a >>= f) = f a := rfl

@[simp] theorem error_bind (e : ε) (f : α → Except ε β) : (.error e >>= f) = .error e := rfl

/-- The error of a result, if it is one. -/
def failure? : Except ε α → Option ε
  | .ok _ => none
  | .error e => some e

@[simp] theorem failure?_ok (a : α) : failure? (.ok a : Except ε α) = none := rfl

@[simp] theorem failure?_error (e : ε) : failure? (.error e : Except ε α) = some e := rfl

theorem failure?_eq_some_iff {x : Except ε α} {e : ε} : failure? x = some e ↔ x = .error e := by
  cases x <;> simp

theorem failure?_eq_none_iff {x : Except ε α} : failure? x = none ↔ ∃ a, x = .ok a := by
  cases x <;> simp

theorem toOption_eq_some_iff {x : Except ε α} {a : α} : x.toOption = some a ↔ x = .ok a := by
  cases x <;> simp [Except.toOption]

theorem failure?_bind (x : Except ε α) (f : α → Except ε β) :
    failure? (x >>= f) = match x with
      | .ok a => failure? (f a)
      | .error e => some e := by
  cases x <;> rfl

end

/-- Of all functions only the factorial fails, and only on what is no whole number from zero on. -/
theorem failure?_apply_function (mode : AngleMode) (f : Func) (x : Double) :
    failure? ((Operator.function f).apply mode x x) =
      if f = .fact ∧ x.toInt?.any (0 ≤ ·) = false then some (.badFactorial x) else none := by
  cases f
  case fact =>
    simp only [Operator.apply, Func.apply]
    unfold Double.factorial
    rcases x.toInt? with _ | n | n <;> simp
  all_goals rfl

/-! ## Trees -/

/-- What stands for a number in postfix order. -/
class Operand (α : Type) where
  token : α → Token
  token_type : ∀ x, (token x).type = .number

/-- A number token, whatever its other fields are. -/
abbrev Number := { t : Token // t.type = .number }

instance : Operand Number := ⟨(·.val), (·.property)⟩

inductive Expression (α : Type) where
  | operand (x : α)
  | negate (e : Expression α)
  | binary (op : BinaryOp) (left right : Expression α)
  | call (f : Func) (argument : Expression α)
  deriving DecidableEq

namespace Expression

variable {α : Type} [Operand α]

/-- What a node is by itself: an operand, or an operator over its children. -/
def head : Expression α → α ⊕ Operator
  | operand x => .inl x
  | negate _ => .inr .negation
  | binary op _ _ => .inr (.binary op)
  | call f _ => .inr (.function f)

/-- The token that a node stands for by itself. -/
def root (e : Expression α) : Token := e.head.elim Operand.token Operator.token

/-- The tokens of a tree, operands before their operator and left before right. -/
def postorder : Expression α → List Token
  | operand x => [Operand.token x]
  | negate e => e.postorder ++ [Operator.negation.token]
  | binary op a b => a.postorder ++ b.postorder ++ [(Operator.binary op).token]
  | call f e => e.postorder ++ [(Operator.function f).token]

/-- The nodes of a tree in the order of their tokens, each with all that is below it. -/
def subtrees : Expression α → List (Expression α)
  | operand x => [operand x]
  | negate e => e.subtrees ++ [negate e]
  | binary op a b => a.subtrees ++ b.subtrees ++ [binary op a b]
  | call f e => e.subtrees ++ [call f e]

theorem map_root_subtrees (e : Expression α) : e.subtrees.map root = e.postorder := by
  induction e with
  | operand x => rfl
  | negate e ih => simp [subtrees, postorder, root, head, ih]
  | binary op a b iha ihb => simp [subtrees, postorder, root, head, iha, ihb]
  | call f e ih => simp [subtrees, postorder, root, head, ih]

/-- The value of a tree by recursion, the left operand before the right one. -/
def value (mode : AngleMode) : Expression α → Except EvaluationError Double
  | operand x => .ok ((Operand.token x).value.getD .nan)
  | negate e => do
    let x ← e.value mode
    applyNamed Operator.negation.name mode x x
  | binary op a b => do
    let x ← a.value mode
    let y ← b.value mode
    applyNamed (Operator.binary op).name mode x y
  | call f e => do
    let x ← e.value mode
    applyNamed (Operator.function f).name mode x x

/-! ## Bad factorials -/

/-- The error of a node that takes the factorial of something other than a whole number from zero on. -/
def badFactorial? (mode : AngleMode) : Expression α → Option EvaluationError
  | call .fact e => match e.value mode with
    | .ok x => if x.toInt?.any (0 ≤ ·) then none else some (.badFactorial x)
    | .error _ => none
  | _ => none

theorem kind_of_badFactorial? {mode : AngleMode} {e : Expression α} {err : EvaluationError}
    (h : badFactorial? mode e = some err) : err.kind = .invalidArgument := by
  unfold badFactorial? at h
  split at h
  · split at h
    · split at h
      · cases h
      · obtain rfl := Option.some.inj h; rfl
    · cases h
  · cases h

theorem kind_of_findSome {mode : AngleMode} {es : List (Expression α)} {err : EvaluationError}
    (h : es.findSome? (badFactorial? mode) = some err) : err.kind = .invalidArgument := by
  obtain ⟨e, -, he⟩ := List.exists_of_findSome?_eq_some h
  exact kind_of_badFactorial? he

/-- The error of a tree is that of its first bad factorial, in the order of the tokens. -/
theorem findSome_subtrees (mode : AngleMode) (e : Expression α) :
    e.subtrees.findSome? (badFactorial? mode) = failure? (e.value mode) := by
  induction e with
  | operand x => rfl
  | negate e ih =>
    simp only [subtrees, List.findSome?_append, ih, value, failure?_bind]
    cases e.value mode with
    | error err => rfl
    | ok x => simp [badFactorial?, applyNamed_name, Operator.apply]
  | binary op a b iha ihb =>
    simp only [subtrees, List.findSome?_append, iha, ihb, value, failure?_bind]
    cases a.value mode with
    | error err => rfl
    | ok x =>
      cases b.value mode with
      | error err => rfl
      | ok y => simp [badFactorial?, applyNamed_name, Operator.apply]
  | call f e ih =>
    simp only [subtrees, List.findSome?_append, ih, value, failure?_bind]
    cases h : e.value mode with
    | error err => rfl
    | ok x =>
      simp only [applyNamed_name, failure?_apply_function]
      cases hx : x.toInt?.any (0 ≤ ·) <;> cases f <;> simp [badFactorial?, h, hx]

theorem value_eq_error_iff {mode : AngleMode} {e : Expression α} {err : EvaluationError} :
    e.value mode = .error err ↔ e.subtrees.findSome? (badFactorial? mode) = some err := by
  rw [findSome_subtrees, failure?_eq_some_iff]

end Expression

end Reckoner
