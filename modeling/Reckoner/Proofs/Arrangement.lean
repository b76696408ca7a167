import Mathlib.Data.List.Sort
import Reckoner.Proofs.Acceptance
/-!
# How conversion arranges a text

`written` are the tokens that the lexemes of a text stand for, in the order of the text: the operands and the
operators without the parentheses. Conversion only rearranges them. Nothing comes out before an operand but what is
written before it, so the operands keep their order and an operator comes out behind all operands that are written
before it (`ofTokens_arranges`).
-/

namespace Reckoner

open Postfix

/-! ## What is written -/

namespace Lexeme

def operand? : Lexeme → Option Atom
  | literal n => some (.literal n)
  | symbol (.constant c) => some (.constant c)
  | _ => none

/-- The operator that a lexeme stands for. A minus where an operand is due is a negation. -/
def operator? (due : Bool) : Lexeme → Option Operator
  | symbol (.binary op) => some (if due && op = .sub then .negation else .binary op)
  | symbol (.function f) => some (.function f)
  | _ => none

end Lexeme

def operands (ls : List Lexeme) : List Atom := ls.filterMap Lexeme.operand?

/-- The operators of a text. An operand is due at its start and behind an opening parenthesis, an operator or a
function. -/
def operators (due : Bool) : List Lexeme → List Operator
  | [] => []
  | l :: ls => (l.operator? due).toList ++ operators (!l.endsOperand) ls

/-- The operands and the operators of a text. -/
def written (due : Bool) : List Lexeme → List Token
  | [] => []
  | l :: ls => (l.operand?.map Atom.token).toList ++ (l.operator? due).toList.map Operator.token ++
      written (!l.endsOperand) ls

section
variable {due : Bool} {ls : List Lexeme}

theorem filter_number_written :
    (written due ls).filter (·.type = .number) = (operands ls).map Atom.token := by
  induction ls generalizing due with
  | nil => rfl
  | cons l ls ih =>
    have hoperator : ((l.operator? due).toList.map Operator.token).filter (·.type = .number) = [] := by
      cases l.operator? due <;> simp
    have hoperand : (l.operand?.map Atom.token).toList.filter (·.type = .number) =
        (l.operand?.map Atom.token).toList := by
      cases l.operand? <;> simp [Atom.token_type]
    rw [written, List.filter_append, List.filter_append, hoperator, hoperand, ih, operands, operands,
      List.filterMap_cons]
    cases l.operand? <;> rfl

theorem filter_not_number_written :
    (written due ls).filter (·.type ≠ .number) = (operators due ls).map Operator.token := by
  induction ls generalizing due with
  | nil => rfl
  | cons l ls ih =>
    have hoperator : ((l.operator? due).toList.map Operator.token).filter (·.type ≠ .number) =
        (l.operator? due).toList.map Operator.token := by
      cases l.operator? due <;> simp
    have hoperand : (l.operand?.map Atom.token).toList.filter (·.type ≠ .number) = [] := by
      cases l.operand? <;> simp [Atom.token_type]
    rw [written, List.filter_append, List.filter_append, hoperator, hoperand, ih, operators, List.map_append]
    rfl

theorem converted_resolve (previous : Option Token) (l : Lexeme) :
    (resolve previous l.token).converted = (l.operand?.map Atom.token).toList ++
      (l.operator? (expectsOperand previous)).toList.map Operator.token := by
  rw [resolve_lexeme]
  split
  · next h => rw [h.1, h.2]; rfl
  · next h =>
    rcases l with n | _ | _ | op | f | c
    case symbol.binary =>
      have hminus : (expectsOperand previous && decide (op = .sub)) = false := by simpa using h
      simp [Lexeme.operand?, Lexeme.operator?, hminus]
      rfl
    all_goals rfl

/-- What is put out in the order of the text. -/
theorem contents_eq_written (previous : Option Token) (ls : List Lexeme) :
    contents previous (ls.map Lexeme.token) = written (expectsOperand previous) ls := by
  induction ls generalizing previous with
  | nil => rfl
  | cons l ls ih => rw [List.map_cons, contents, converted_resolve, ih, expectsOperand_resolve, written]

/-- Only parentheses stand for nothing. -/
theorem eq_group_of_written (h : written due ls = []) :
    ∀ l ∈ ls, l = .symbol .openGroup ∨ l = .symbol .closeGroup := by
  induction ls generalizing due with
  | nil => simp
  | cons l ls ih =>
    rw [written, List.append_eq_nil_iff] at h
    have hl : l = .symbol .openGroup ∨ l = .symbol .closeGroup := by
      rcases l with n | _ | _ | op | f | c <;> simp_all [Lexeme.operand?, Lexeme.operator?]
    simpa using ⟨hl, ih h.2⟩

end

/-! ## What is put out -/

namespace Postfix

/-- Numbers that come out in order are those that are written, in their order. -/
theorem filter_number_of_inOrder {placed : List Placed} {ts : List Token} (hperm : placed.Perm ts.zipIdx)
    (hpairs : placed.Pairwise InOrder) :
    (placed.map Prod.fst).filter (·.type = .number) = ts.filter (·.type = .number) := by
  have increasing : ∀ xs : List Placed, xs.Pairwise InOrder →
      (xs.filter (·.1.type = .number)).Pairwise fun x y => x.2 < y.2 := fun xs hxs =>
    (hxs.filter _).imp_of_mem fun _ hy h => h (by simpa using (List.mem_filter.1 hy).2)
  have hfilter : placed.filter (·.1.type = .number) = ts.zipIdx.filter (·.1.type = .number) :=
    (hperm.filter _).eq_of_pairwise (fun x y _ _ hxy hyx => absurd hxy hyx.not_gt)
      (increasing _ hpairs) (increasing _ (pairwise_zipIdx ts 0))
  calc (placed.map Prod.fst).filter (·.type = .number)
      = (placed.filter (·.1.type = .number)).map Prod.fst := List.filter_map
    _ = (ts.zipIdx.filter (·.1.type = .number)).map Prod.fst := by rw [hfilter]
    _ = (ts.zipIdx.map Prod.fst).filter (·.type = .number) := by rw [List.filter_map]; rfl
    _ = ts.filter (·.type = .number) := by rw [List.zipIdx_map_fst]

/-- An operator always leaves a value, so only an empty sequence leaves none. -/
theorem eq_nil_of_depth {ps : List Token} (hps : ∀ t ∈ ps, t.IsPlain) (h : depth? ps = some 0) : ps = [] := by
  obtain ⟨es, hlength, rfl⟩ := (Expression.depth?_eq_some_iff hps).1 h
  have hnil : es = [] := List.length_eq_zero_iff.1 (by omega)
  rw [hnil]
  rfl

/-- Conversion rearranges the operands and the operators of a text, whatever sense the text makes. The operands keep
their order, and nothing comes out before an operand but what is written before it. -/
theorem ofTokens_arranges {ls : List Lexeme} {ps : List Token} (h : ofTokens (ls.map Lexeme.token) = .ok ps) :
    (∀ t ∈ ps, t.type = .number ∨ t.type = .operator ∨ t.type = .function) ∧
    ps.filter (·.type = .number) = (operands ls).map Atom.token ∧
    (ps.filter (·.type ≠ .number)).Perm ((operators true ls).map Operator.token) ∧
    (∃ placed : List Placed, placed.map Prod.fst = ps ∧ placed.Perm (written true ls).zipIdx ∧
      placed.Pairwise fun x y => y.1.type = .number → x.2 < y.2) ∧
    (depth? ps = none ∨ depth? ps = some ((operandCount ls : Int) - binaryCount true ls)) ∧
    (depth? ps = some 0 → ∀ l ∈ ls, l = .symbol .openGroup ∨ l = .symbol .closeGroup) := by
  have hwritten : contents none (ls.map Lexeme.token) = written true ls := contents_eq_written none ls
  have hperm : ps.Perm (written true ls) := hwritten ▸ ofTokens_perm h
  obtain ⟨placed, hplaced, hplaces, hpairs⟩ := ofTokens_placed h
  rw [hwritten] at hplaces
  have hplain : ∀ t ∈ ps, t.IsPlain := by
    rcases ofTokens_scanned ls with ⟨ps', hps', hplain⟩ | ⟨err, herr, -⟩
    · rw [h] at hps'
      cases hps'
      exact hplain
    · rw [h] at herr
      cases herr
  refine ⟨fun t ht => (hplain t ht).imp_right And.right, ?_, ?_, ⟨placed, hplaced, hplaces, hpairs⟩, ?_,
    fun hdepth => ?_⟩
  · rw [← hplaced, filter_number_of_inOrder hplaces hpairs, filter_number_written]
  · rw [← filter_not_number_written]
    exact hperm.filter _
  · cases hdepth : depth? ps with
    | none => exact .inl rfl
    | some k =>
      have hgain : gain ps = balance true ls :=
        (gain_eq_of_perm (ofTokens_perm h)).trans (gain_contents none ls)
      have hk : k = 0 + gain ps := depthFrom?_eq_some hdepth
      rw [hk, hgain, zero_add, balance]
      exact .inr rfl
  · rw [eq_nil_of_depth hplain hdepth] at hperm
    exact eq_group_of_written hperm.symm.eq_nil

/-- Two operands side by side in a group, a negation behind a function and a power without its right operand. -/
theorem ofTokens_arranges_misplaced :
    let ls : List Lexeme := [.symbol .openGroup, .symbol (.constant .pi), .symbol (.constant .i), .symbol .closeGroup,
      .symbol (.binary .sub), .symbol (.function .sin), .symbol (.binary .sub), .symbol (.constant .e),
      .symbol (.binary .pow)]
    let ps : List Token := [.number Constant.pi.value "π", .number Constant.i.value "i", .number Constant.e.value "e",
      Operator.negation.token, (Operator.binary .pow).token, (Operator.function .sin).token,
      (Operator.binary .sub).token]
    ofTokens (ls.map Lexeme.token) = .ok ps ∧
    ps.filter (·.type = .number) = [Atom.constant .pi, .constant .i, .constant .e].map Atom.token ∧
    (ps.filter (·.type ≠ .number)).Perm
      ([.binary .sub, .function .sin, .negation, .binary .pow].map Operator.token) ∧
    (depth? ps = none ∨ depth? ps = some 1) := by
  intro ls ps
  have h : ofTokens (ls.map Lexeme.token) = .ok ps := rfl
  obtain ⟨-, hoperands, hoperators, -, hdepth, -⟩ := ofTokens_arranges h
  exact ⟨h, hoperands, hoperators, hdepth⟩

end Postfix
end Reckoner
