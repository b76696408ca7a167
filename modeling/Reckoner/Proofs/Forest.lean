import Mathlib.Data.List.Induction
import Mathlib.Tactic.NormNum
import Reckoner.Proofs.Expression
/-!
# Postfix sequences as forests

A postfix sequence that never lacks operands lists the tokens of trees one after another, as many as the
depth it leaves, and of one list of trees only. Evaluating it comes to what those trees come to
(`outcome`).

The proofs follow a stack of trees, the top one first: `pushes` are the tokens that lead to it, and the
last of them splits the top tree into its children (`pushes_cons`).
-/

namespace Reckoner

open Postfix

/-! ## Tokens that compute -/

namespace Token

theorem mem_predefined {t : Token} :
    t ∈ predefined ↔ (∃ op : Operator, t = op.token) ∨ t = Symbol.openGroup.token ∨
      t = Symbol.closeGroup.token ∨ ∃ c, t = (Symbol.constant c).token := by
  simp only [predefined, List.mem_append, List.mem_cons, List.not_mem_nil, or_false, List.mem_map]
  constructor
  · rintro ((((h | ⟨op, -, rfl⟩) | rfl) | ⟨f, -, rfl⟩) | ⟨c, -, rfl⟩)
    · exact .inr (h.imp id .inl)
    · exact .inl ⟨.binary op, rfl⟩
    · exact .inl ⟨.negation, rfl⟩
    · exact .inl ⟨.function f, rfl⟩
    · exact .inr (.inr (.inr ⟨c, rfl⟩))
  · rintro (⟨op | _ | f, rfl⟩ | h | h | ⟨c, rfl⟩)
    · exact .inl (.inl (.inl (.inr ⟨op, by cases op <;> decide, rfl⟩)))
    · exact .inl (.inl (.inr rfl))
    · exact .inl (.inr ⟨f, by cases f <;> decide, rfl⟩)
    · exact .inl (.inl (.inl (.inl (.inl h))))
    · exact .inl (.inl (.inl (.inl (.inr h))))
    · exact .inr ⟨c, by cases c <;> decide, rfl⟩

/-- A number, or an operator or function that is known by name. -/
def IsPlain (t : Token) : Prop :=
  t.type = .number ∨ (t ∈ predefined ∧ (t.type = .operator ∨ t.type = .function))

theorem isPlain_iff {t : Token} : t.IsPlain ↔ t.type = .number ∨ ∃ op : Operator, t = op.token := by
  unfold IsPlain
  rw [mem_predefined]
  constructor
  · rintro (h | ⟨h | rfl | rfl | ⟨c, rfl⟩, ht⟩)
    · exact .inl h
    · exact .inr h
    all_goals simp [Symbol.token] at ht
  · rintro (h | ⟨op, rfl⟩)
    · exact .inl h
    · exact .inr ⟨.inl ⟨op, rfl⟩, op.token_type⟩

end Token

/-! ## One token -/

theorem depthFrom?_number {t : Token} (h : t.type = .number) (d : Int) (ts : List Token) :
    depthFrom? d (t :: ts) = depthFrom? (d + 1) ts := by
  simp [depthFrom?, h]

theorem depthFrom?_operator (op : Operator) (d : Int) (ts : List Token) :
    depthFrom? d (op.token :: ts) =
      if d < op.arity then none else depthFrom? (d - op.arity + 1) ts := by
  rcases op.token_type with h | h <;> simp [depthFrom?, h]

theorem evaluateToken_number {t : Token} (h : t.type = .number) (mode : AngleMode) (stack : List Double) :
    evaluateToken mode stack t = .ok (t.value.getD .nan :: stack) := by
  simp [evaluateToken, h]

theorem evaluateToken_unary (op : Operator) (h : op.arity = 1) (mode : AngleMode) (x : Double)
    (stack : List Double) :
    evaluateToken mode (x :: stack) op.token = (· :: stack) <$> applyNamed op.name mode x x := by
  simp [evaluateToken, h]

theorem evaluateToken_binary (op : BinaryOp) (mode : AngleMode) (x y : Double) (stack : List Double) :
    evaluateToken mode (y :: x :: stack) (Operator.binary op).token =
      (· :: stack) <$> applyNamed (Operator.binary op).name mode x y := by
  simp [evaluateToken, Operator.arity]

namespace Expression

/-! ## Depth -/

section
variable {α : Type} [Operand α]

theorem depthFrom?_postorder (e : Expression α) {d : Int} (hd : 0 ≤ d) (ts : List Token) :
    depthFrom? d (e.postorder ++ ts) = depthFrom? (d + 1) ts := by
  induction e generalizing d ts with
  | operand x => exact depthFrom?_number (Operand.token_type x) d ts
  | negate e ih =>
    rw [postorder, List.append_assoc, ih hd, List.singleton_append, depthFrom?_operator,
      if_neg (by simp only [Operator.arity]; omega)]
    simp [Operator.arity]
  | binary op a b iha ihb =>
    rw [postorder, List.append_assoc, List.append_assoc, iha hd, ihb (by omega),
      List.singleton_append, depthFrom?_operator, if_neg (by simp only [Operator.arity]; omega)]
    congr 1
    simp only [Operator.arity]
    omega
  | call f e ih =>
    rw [postorder, List.append_assoc, ih hd, List.singleton_append, depthFrom?_operator,
      if_neg (by simp only [Operator.arity]; omega)]
    simp [Operator.arity]

/-- Every tree leaves one value. -/
theorem depthFrom?_flatMap (es : List (Expression α)) {d : Int} (hd : 0 ≤ d) :
    depthFrom? d (es.flatMap postorder) = some (d + es.length) := by
  induction es generalizing d with
  | nil => simp [depthFrom?]
  | cons e es ih =>
    rw [List.flatMap_cons, depthFrom?_postorder e hd, ih (by omega)]
    simp only [List.length_cons, Option.some.injEq]
    omega

/-! ## Stacks of trees -/

/-- What is directly below a node, the last operand first. -/
def children : Expression α → List (Expression α)
  | operand _ => []
  | negate e => [e]
  | binary _ a b => [b, a]
  | call _ e => [e]

/-- The tokens that lead to a stack of trees, the top one first. -/
def pushes : List (Expression α) → List Token
  | [] => []
  | e :: stack => pushes stack ++ e.postorder

theorem pushes_append (es us : List (Expression α)) : pushes (es ++ us) = pushes us ++ pushes es := by
  induction es with
  | nil => simp [pushes]
  | cons e es ih => simp [pushes, ih]

theorem pushes_reverse (es : List (Expression α)) : pushes es.reverse = es.flatMap postorder := by
  induction es with
  | nil => rfl
  | cons e es ih => simp [pushes_append, pushes, ih]

/-- The last token is that of the top node, and what is before it leads to the node's children. -/
theorem pushes_cons (e : Expression α) (stack : List (Expression α)) :
    pushes (e :: stack) = pushes (e.children ++ stack) ++ [e.root] := by
  cases e <;> simp [pushes, postorder, children, root, head]

theorem pushes_eq_nil {es : List (Expression α)} (h : pushes es = []) : es = [] := by
  cases es with
  | nil => rfl
  | cons e es => simp [pushes_cons] at h

end

theorem head_eq_of_root_eq {e u : Expression Number} (h : e.root = u.root) : e.head = u.head := by
  unfold root at h
  generalize e.head = x, u.head = y at h ⊢
  rcases x with x | op <;> rcases y with y | op' <;> simp only [Sum.elim_inl, Sum.elim_inr] at h
  · exact congrArg Sum.inl (Subtype.ext h)
  · exact absurd (h ▸ x.property) op'.token_ne_number
  · exact absurd (h ▸ y.property) op.token_ne_number
  · exact congrArg Sum.inr (Operator.token_injective h)

/-- A node and its children make up the tree. -/
theorem cons_eq_cons_of_head {e u : Expression Number} {es us : List (Expression Number)}
    (hh : e.head = u.head) (hc : e.children ++ es = u.children ++ us) : e :: es = u :: us := by
  cases e <;> cases u <;> simp_all [head, children]

/-- One sequence leads to one stack only. -/
theorem pushes_injective : Function.Injective (pushes (α := Number)) := by
  intro es us h
  generalize hts : pushes us = ts at h
  induction ts using List.reverseRecOn generalizing es us with
  | nil => rw [pushes_eq_nil h, pushes_eq_nil hts]
  | append_singleton ts t ih =>
    cases es with
    | nil => simp [pushes] at h
    | cons e es =>
      cases us with
      | nil => simp [pushes] at hts
      | cons u us =>
        rw [pushes_cons] at h hts
        obtain ⟨he, hr⟩ := List.append_inj' h rfl
        obtain ⟨hu, hr'⟩ := List.append_inj' hts rfl
        have hroot : e.root = u.root := by simp_all
        exact cons_eq_cons_of_head (head_eq_of_root_eq hroot) (ih hu he)

/-- An operator with enough operands on a stack makes one tree of them. -/
theorem exists_push_operator (op : Operator) {stack : List (Expression Number)}
    (h : op.arity ≤ stack.length) :
    ∃ stack' : List (Expression Number), stack'.length + op.arity = stack.length + 1 ∧
      pushes stack' = pushes stack ++ [op.token] := by
  cases op with
  | binary op =>
    obtain _ | ⟨b, _ | ⟨a, stack⟩⟩ := stack
    · simp [Operator.arity] at h
    · simp [Operator.arity] at h
    · exact ⟨binary op a b :: stack, by simp [Operator.arity], pushes_cons _ _⟩
  | negation =>
    obtain _ | ⟨e, stack⟩ := stack
    · simp [Operator.arity] at h
    · exact ⟨negate e :: stack, by simp [Operator.arity], pushes_cons _ _⟩
  | function f =>
    obtain _ | ⟨e, stack⟩ := stack
    · simp [Operator.arity] at h
    · exact ⟨call f e :: stack, by simp [Operator.arity], pushes_cons _ _⟩

/-- Whatever leaves a depth has built that many trees on the way. -/
theorem exists_pushes {ps : List Token} (hp : ∀ t ∈ ps, t.IsPlain) (stack : List (Expression Number))
    {k : Int} (h : depthFrom? stack.length ps = some k) :
    ∃ stack' : List (Expression Number), (stack'.length : Int) = k ∧ pushes stack' = pushes stack ++ ps := by
  induction ps generalizing stack with
  | nil => exact ⟨stack, by simpa [depthFrom?] using h, by simp⟩
  | cons t ps ih =>
    have hps : ∀ t ∈ ps, t.IsPlain := fun t ht => hp t (List.mem_cons_of_mem _ ht)
    rcases Token.isPlain_iff.1 (hp t List.mem_cons_self) with ht | ⟨op, rfl⟩
    · rw [depthFrom?_number ht] at h
      obtain ⟨stack', hk, hpush⟩ := ih hps (operand ⟨t, ht⟩ :: stack) (by simpa using h)
      exact ⟨stack', hk, by simp [hpush, pushes, postorder, Operand.token]⟩
    · rw [depthFrom?_operator] at h
      split at h
      · cases h
      · next hd =>
        have harity : op.arity ≤ stack.length := by omega
        obtain ⟨stack₁, hlen, hpush₁⟩ := exists_push_operator op harity
        have hd' : (stack.length : Int) - op.arity + 1 = stack₁.length := by omega
        rw [hd'] at h
        obtain ⟨stack', hk, hpush⟩ := ih hps stack₁ h
        exact ⟨stack', hk, by simp [hpush, hpush₁]⟩

/-! ## Evaluation -/

section
variable {α : Type} [Operand α]

/-- The tokens of a tree put its value on the stack. -/
theorem foldlM_postorder (mode : AngleMode) (e : Expression α) (stack : List Double) :
    e.postorder.foldlM (evaluateToken mode) stack = (· :: stack) <$> e.value mode := by
  induction e generalizing stack with
  | operand x => simp [postorder, evaluateToken_number (Operand.token_type x), value]
  | negate e ih =>
    simp only [postorder, List.foldlM_append, ih, value, bind_map_left, map_bind]
    simp [evaluateToken_unary .negation rfl]
  | binary op a b iha ihb =>
    simp only [postorder, List.foldlM_append, iha, ihb, value, bind_map_left, map_bind]
    simp [evaluateToken_binary]
  | call f e ih =>
    simp only [postorder, List.foldlM_append, ih, value, bind_map_left, map_bind]
    simp [evaluateToken_unary (.function f) rfl]

theorem foldlM_flatMap (mode : AngleMode) (es : List (Expression α)) (stack : List Double) :
    (es.flatMap postorder).foldlM (evaluateToken mode) stack =
      (fun xs => xs.reverse ++ stack) <$> es.mapM (value mode) := by
  induction es generalizing stack with
  | nil => simp
  | cons e es ih =>
    simp only [List.flatMap_cons, List.foldlM_append, foldlM_postorder, ih, List.mapM_cons,
      bind_map_left, map_bind]
    congr 1; funext x
    simp

/-- The first tree with a bad factorial stops the list. -/
theorem findSome_flatMap_subtrees (mode : AngleMode) (es : List (Expression α)) :
    (es.flatMap subtrees).findSome? (badFactorial? mode) = failure? (es.mapM (value mode)) := by
  induction es with
  | nil => rfl
  | cons e es ih =>
    rw [List.flatMap_cons, List.findSome?_append, findSome_subtrees, ih, List.mapM_cons, failure?_bind]
    cases e.value mode with
    | error err => rfl
    | ok x => cases es.mapM (value mode) <;> rfl

/-- What trees come to one after another: the error of the first bad factorial among them, or else the
value of the only tree, or of the first one if that is enough. -/
def outcome (mode : AngleMode) (partially : Bool) (es : List (Expression α)) :
    Except EvaluationError Double :=
  match (es.flatMap subtrees).findSome? (badFactorial? mode), es with
  | some err, _ => .error err
  | none, [] => .error .empty
  | none, [e] => e.value mode
  | none, e :: _ :: _ => if partially then e.value mode else .error (.leftover es.length)

theorem length_of_mapM {α β ε : Type} {f : α → Except ε β} {es : List α} {xs : List β}
    (h : es.mapM f = .ok xs) : xs.length = es.length := by
  induction es generalizing xs with
  | nil => cases h; rfl
  | cons e es ih =>
    rw [List.mapM_cons] at h
    cases he : f e with
    | error err => rw [he] at h; cases h
    | ok x =>
      cases hes : es.mapM f with
      | error err => rw [he, hes] at h; cases h
      | ok ys =>
        rw [he, hes] at h
        cases h
        simp [ih hes]

theorem answer_reverse (partially : Bool) (x : Double) (xs : List Double) :
    answer partially (x :: xs).reverse =
      if xs = [] ∨ partially then .ok x else .error (.leftover (xs.length + 1)) := by
  cases xs <;> cases partially <;> simp [answer]

theorem evaluatePostfix_flatMap (mode : AngleMode) (partially : Bool) (es : List (Expression α)) :
    evaluatePostfix mode partially (es.flatMap postorder) = outcome mode partially es := by
  unfold evaluatePostfix outcome
  rw [foldlM_flatMap, findSome_flatMap_subtrees]
  cases es with
  | nil => rfl
  | cons e es =>
    rw [List.mapM_cons]
    cases he : e.value mode with
    | error err => rfl
    | ok x =>
      cases hes : es.mapM (value mode) with
      | error err => rfl
      | ok xs =>
        have hlen := length_of_mapM hes
        show answer partially ((x :: xs).reverse ++ []) = _
        rw [List.append_nil, answer_reverse]
        cases es with
        | nil =>
          rw [List.eq_nil_of_length_eq_zero hlen, if_pos (.inl rfl)]
          exact he.symm
        | cons u es =>
          have hxs : xs ≠ [] := by rintro rfl; simp at hlen
          show _ = if partially then e.value mode else .error (.leftover (e :: u :: es).length)
          simp [hxs, hlen, he]

theorem outcome_singleton (mode : AngleMode) (partially : Bool) (e : Expression α) :
    outcome mode partially [e] = e.value mode := by
  unfold outcome
  rw [List.flatMap_singleton, findSome_subtrees]
  cases h : e.value mode with
  | ok x => exact h
  | error err => rfl

theorem evaluatePostfix_postorder (mode : AngleMode) (partially : Bool) (e : Expression α) :
    evaluatePostfix mode partially e.postorder = e.value mode := by
  rw [← outcome_singleton mode partially e, ← evaluatePostfix_flatMap, List.flatMap_singleton]

/-- Without a bad factorial every tree has a value. -/
theorem exists_value {mode : AngleMode} {es : List (Expression α)}
    (h : (es.flatMap subtrees).findSome? (badFactorial? mode) = none) {e : Expression α} (he : e ∈ es) :
    ∃ x, e.value mode = .ok x := by
  have hnone : e.subtrees.findSome? (badFactorial? mode) = none := by
    rw [List.findSome?_eq_none_iff] at h ⊢
    exact fun u hu => h u (List.mem_flatMap_of_mem he hu)
  rwa [findSome_subtrees, failure?_eq_none_iff] at hnone

/-- Trees fail on a bad factorial, or else because there is not one of them. -/
theorem kind_of_outcome {mode : AngleMode} {partially : Bool} {es : List (Expression α)}
    {err : EvaluationError} (h : outcome mode partially es = .error err) :
    ((es.flatMap subtrees).findSome? (badFactorial? mode) = some err ∧ err.kind = .invalidArgument) ∨
      (es.length ≠ 1 ∧ err.kind = .malformedExpression) := by
  unfold outcome at h
  split at h
  · next hsome =>
    cases h
    exact .inl ⟨hsome, kind_of_findSome hsome⟩
  · cases h
    exact .inr ⟨by simp, rfl⟩
  · next hnone =>
    obtain ⟨x, hx⟩ := exists_value hnone List.mem_cons_self
    rw [hx] at h
    cases h
  · next e u us hnone =>
    split at h
    · obtain ⟨x, hx⟩ := exists_value hnone List.mem_cons_self
      rw [hx] at h
      cases h
    · cases h
      exact .inr ⟨by simp, rfl⟩

end

/-! ## Sequences as forests -/

theorem flatMap_postorder_injective {es us : List (Expression Number)}
    (h : es.flatMap postorder = us.flatMap postorder) : es = us := by
  rw [← pushes_reverse, ← pushes_reverse] at h
  exact List.reverse_inj.1 (pushes_injective h)

theorem depth?_eq_some_iff {ps : List Token} (hp : ∀ t ∈ ps, t.IsPlain) {k : Int} :
    depth? ps = some k ↔ ∃ es : List (Expression Number), (es.length : Int) = k ∧ es.flatMap postorder = ps := by
  constructor
  · intro h
    obtain ⟨stack, hlen, hpush⟩ := exists_pushes hp [] h
    exact ⟨stack.reverse, by simpa using hlen, by simp [← pushes_reverse, hpush, pushes]⟩
  · rintro ⟨es, rfl, rfl⟩
    simpa [depth?] using depthFrom?_flatMap es le_rfl

/-- A sequence has a depth exactly if it lists the tokens of that many trees. The trees are unique, and
the sequence evaluates to what they come to. -/
theorem evaluatePostfix_forest {ps : List Token} (hp : ∀ t ∈ ps, t.IsPlain) :
    (∀ k : Int, depth? ps = some k ↔
      ∃ es : List (Expression Number), (es.length : Int) = k ∧ es.flatMap postorder = ps) ∧
    ∀ es : List (Expression Number), es.flatMap postorder = ps →
      (∀ us : List (Expression Number), us.flatMap postorder = ps → us = es) ∧
      (es.flatMap subtrees).map root = ps ∧
      ∀ mode partially,
        evaluatePostfix mode partially ps = outcome mode partially es ∧
        ((es.flatMap subtrees).findSome? (badFactorial? mode) = none →
          ∀ e ∈ es, ∃ x, e.value mode = .ok x) ∧
        ∀ err, outcome mode partially es = .error err →
          ((es.flatMap subtrees).findSome? (badFactorial? mode) = some err ∧ err.kind = .invalidArgument) ∨
            (es.length ≠ 1 ∧ err.kind = .malformedExpression) := by
  refine ⟨fun k => depth?_eq_some_iff hp, ?_⟩
  rintro es rfl
  refine ⟨fun us hus => flatMap_postorder_injective hus, ?_, fun mode partially => ?_⟩
  · rw [List.map_flatMap]
    exact congrArg (es.flatMap ·) (funext map_root_subtrees)
  · exact ⟨evaluatePostfix_flatMap mode partially es, fun h e he => exists_value h he,
      fun err => kind_of_outcome⟩

/-- Three and five subtracted, and then a factorial: two trees. -/
theorem evaluatePostfix_forest_pair :
    let three : Number := ⟨.number (.ofNat 3) none, rfl⟩
    let five : Number := ⟨.number (.ofNat 5) none, rfl⟩
    let ps := [three.val, five.val, (Operator.binary .sub).token, five.val, (Operator.function .fact).token]
    (∀ t ∈ ps, t.IsPlain) ∧ depth? ps = some 2 ∧ ∀ mode,
      evaluatePostfix mode true ps = outcome mode true
        [.binary .sub (.operand three) (.operand five), .call .fact (.operand five)] := by
  intro three five ps
  have hp : ∀ t ∈ ps, t.IsPlain := by
    simp [ps, three, five, Token.isPlain_iff, Token.number]
  have hforest := evaluatePostfix_forest hp
  refine ⟨hp, ?_, fun mode => ?_⟩
  · exact (hforest.1 2).2
      ⟨[.binary .sub (.operand three) (.operand five), .call .fact (.operand five)], rfl, rfl⟩
  · exact ((hforest.2 _ rfl).2.2 mode true).1

end Expression

end Reckoner
