import Reckoner.Proofs.Scanning
/-!
# Printing expressions

`Expression.print` writes a tree without gaps and with as few groups as the grammar allows: a binary
operator is grouped where its precedence would let it fall apart. What is printed is an expression of the
grammar (`derives_lexemes`), so it is read back as the same tree and has the tree's value.
-/

namespace Reckoner

/-- The lexemes, put into a group if need be. -/
def grouped (needed : Bool) (ls : List Lexeme) : List Lexeme :=
  if needed then .symbol .openGroup :: ls ++ [.symbol .closeGroup] else ls

namespace Expression

/-- The precedence of the operator on top of a tree, if that is binary. -/
def precedence? {α : Type} : Expression α → Option Int
  | binary op _ _ => some op.precedence
  | _ => none

/-- A tree in infix order. A binary operator is grouped after a minus sign, on the left of a tighter
operator, and on the right of one that is at least as tight. -/
def lexemes : Expression Atom → List Lexeme
  | operand a => [a.lexeme]
  | negate e => .symbol (.binary .sub) :: grouped e.precedence?.isSome e.lexemes
  | binary op a b =>
    grouped (a.precedence?.any (· < op.precedence)) a.lexemes ++
      .symbol (.binary op) :: grouped (b.precedence?.any (· ≤ op.precedence)) b.lexemes
  | call f e => .symbol (.function f) :: .symbol .openGroup :: e.lexemes ++ [.symbol .closeGroup]

def print (e : Expression Atom) : String := Lexeme.write e.lexemes

/-! ## What is printed is an expression -/

theorem one_le_precedence {e : Expression Atom} {q : Int} (hq : e.precedence? = some q) : 1 ≤ q := by
  cases e with
  | binary op a b => cases hq; cases op <;> decide
  | _ => cases hq

/-- A group is an expression of any level; without one the level is that of the operator on top. -/
theorem derives_grouped {e : Expression Atom}
    (h : ∀ p, (∀ q, e.precedence? = some q → p ≤ q) → Derives p false e.lexemes e) {p : Int} {needed : Bool}
    (hp : needed = false → ∀ q, e.precedence? = some q → p ≤ q) :
    Derives p false (grouped needed e.lexemes) e := by
  cases needed with
  | false => exact h p (hp rfl)
  | true => exact .group (h 1 fun q hq => one_le_precedence hq)

theorem derives_lexemes (e : Expression Atom) {p : Int} (hp : ∀ q, e.precedence? = some q → p ≤ q) :
    Derives p false e.lexemes e := by
  induction e generalizing p with
  | operand a => exact .atom a
  | negate e ih =>
    refine .negate (derives_grouped (fun p hp => ih hp) fun hneeded q hq => ?_)
    simp [hq] at hneeded
  | binary op a b iha ihb =>
    refine .binary op (hp _ rfl) (derives_grouped (fun p hp => iha hp) fun hneeded q hq => ?_)
      (derives_grouped (fun p hp => ihb hp) fun hneeded q hq => ?_)
    · simpa [hq] using hneeded
    · simp [hq] at hneeded
      omega
  | call f e ih => exact .call f (ih fun q hq => one_le_precedence hq)

/-! ## Values -/

/-- A printed tree is read back as its tokens in post-order and has the value of the tree, or the error
of its first bad factorial. -/
theorem evaluate_print (e : Expression Atom) :
    Postfix.ofTokens (tokenize e.print) = .ok e.postorder ∧
    ∀ mode partially,
      evaluate mode partially e.print = (e.value mode).mapError .evaluation ∧
      ∀ err, e.value mode = .error err ↔
        e.subtrees.findSome? (badFactorial? mode) = some err ∧ err.kind = .invalidArgument := by
  have hprint : Postfix.ofTokens (tokenize e.print) = .ok e.postorder :=
    ofTokens_write (e.derives_lexemes fun q hq => one_le_precedence hq)
  refine ⟨hprint, fun mode partially => ⟨?_, fun err => ?_⟩⟩
  · rw [evaluate, hprint, ok_bind, evaluatePostfix_postorder]
  · rw [value_eq_error_iff]
    exact ⟨fun h => ⟨h, kind_of_findSome h⟩, And.left⟩

example : (binary .pow (binary .sub (operand (.constant .pi)) (binary .sub (operand (.constant .e))
    (operand (.constant .i)))) (negate (operand (.constant .pi)))).print = "(π-(e-i))^-π" := by
  decide +kernel

end Expression

end Reckoner
