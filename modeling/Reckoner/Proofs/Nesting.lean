import Reckoner.Proofs.Agreement
import Reckoner.Proofs.Grammar
/-!
# Groups that are opened and closed

`groups?` counts the open groups along a sequence of lexemes, and the stack of a conversion holds one
opening parenthesis for each of them, whatever else its tokens take off (`advance_groups`, `run_groups`).
So parentheses alone decide whether a conversion fails, and a text whose parentheses do not match fails on
them before anything is evaluated (`parentheses_precede_evaluation`).
-/

namespace Reckoner

open Postfix

/-! ## Open groups -/

/-- How many groups are open after a lexeme; none if it closes a group that is not there. -/
def Lexeme.group? : (opened : Nat) → Lexeme → Option Nat
  | opened, .symbol .openGroup => some (opened + 1)
  | 0, .symbol .closeGroup => none
  | opened + 1, .symbol .closeGroup => some opened
  | opened, _ => some opened

def groups? (opened : Nat) (ls : List Lexeme) : Option Nat := ls.foldlM Lexeme.group? opened

section
variable {n m : Nat} {ls : List Lexeme}

@[simp] theorem groups?_nil : groups? n [] = some n := rfl

theorem groups?_cons (l : Lexeme) : groups? n (l :: ls) = l.group? n >>= (groups? · ls) := rfl

@[simp] theorem groups?_openGroup : groups? n (.symbol .openGroup :: ls) = groups? (n + 1) ls := rfl

theorem groups?_append (ms : List Lexeme) : groups? n (ls ++ ms) = groups? n ls >>= (groups? · ms) :=
  List.foldlM_append

/-- Only parentheses have a say. -/
theorem Lexeme.group?_cases (l : Lexeme) :
    l = .symbol .openGroup ∨ l = .symbol .closeGroup ∨
      (l ≠ .symbol .openGroup ∧ l ≠ .symbol .closeGroup ∧ ∀ n, l.group? n = some n) := by
  rcases l with m | _ | _ | op | f | c
  · exact .inr (.inr ⟨by simp, by simp, fun n => by cases n <;> rfl⟩)
  · exact .inl rfl
  · exact .inr (.inl rfl)
  all_goals exact .inr (.inr ⟨by simp, by simp, fun n => by cases n <;> rfl⟩)

/-- All other lexemes leave the groups as they are. -/
theorem groups?_cons_of_ne {l : Lexeme} (hopen : l ≠ .symbol .openGroup) (hclose : l ≠ .symbol .closeGroup) :
    groups? n (l :: ls) = groups? n ls := by
  obtain ⟨-, -, hsame⟩ := (l.group?_cases.resolve_left hopen).resolve_left hclose
  rw [groups?_cons, hsame]
  rfl

theorem count_of_groups? (h : groups? n ls = some m) :
    n + ls.count (.symbol .openGroup) = m + ls.count (.symbol .closeGroup) := by
  induction ls generalizing n with
  | nil => simpa using h
  | cons l ls ih =>
    rcases l.group?_cases with rfl | rfl | ⟨hopen, hclose, hsame⟩
    · have := ih (n := n + 1) h
      simp
      omega
    · cases n with
      | zero => cases h
      | succ n =>
        have := ih (n := n) h
        simp
        omega
    · rw [groups?_cons, hsame] at h
      simpa [hopen, hclose] using ih h

/-- A group is missing exactly where some first part closes more than there is. -/
theorem groups?_eq_none_iff :
    groups? n ls = none ↔ ∃ us, us <+: ls ∧
      n + us.count (.symbol .openGroup) < us.count (.symbol .closeGroup) := by
  constructor
  · intro h
    induction ls generalizing n with
    | nil => cases h
    | cons l ls ih =>
      rcases l.group?_cases with rfl | rfl | ⟨hopen, hclose, hsame⟩
      · obtain ⟨us, hus, hcount⟩ := ih (n := n + 1) h
        exact ⟨_, List.cons_prefix_cons.2 ⟨rfl, hus⟩, by simp; omega⟩
      · cases n with
        | zero => exact ⟨[.symbol .closeGroup], by simp, by simp⟩
        | succ n =>
          obtain ⟨us, hus, hcount⟩ := ih (n := n) h
          exact ⟨_, List.cons_prefix_cons.2 ⟨rfl, hus⟩, by simp; omega⟩
      · rw [groups?_cons, hsame] at h
        obtain ⟨us, hus, hcount⟩ := ih h
        exact ⟨l :: us, List.cons_prefix_cons.2 ⟨rfl, hus⟩, by simpa [hopen, hclose] using hcount⟩
  · rintro ⟨us, ⟨vs, rfl⟩, hcount⟩
    rw [groups?_append]
    cases h : groups? n us with
    | none => rfl
    | some m =>
      have := count_of_groups? h
      omega

end

/-! ## Open groups on a stack -/

namespace Postfix

/-- How many groups on a stack wait to be closed. -/
def opened (stack : List Token) : Nat := stack.countP (·.type = .leftParen)

theorem opened_eq_zero_iff {stack : List Token} : opened stack = 0 ↔ ∀ t ∈ stack, t.type ≠ .leftParen := by
  simp [opened, List.countP_eq_zero]

@[simp] theorem opened_cons (t : Token) (stack : List Token) :
    opened (t :: stack) = opened stack + if t.type = .leftParen then 1 else 0 := by
  simp [opened, List.countP_cons]

@[simp] theorem opened_append (top below : List Token) : opened (top ++ below) = opened top + opened below :=
  List.countP_append

/-- What a token puts out and takes off a stack holds no open group but the one that it closes. -/
theorem Moves.opened_eq {stack out stack' : List Token} {t : Token} (h : Moves stack t out stack') :
    opened stack' + (if t.type = .rightParen then 1 else 0) =
      opened stack + if t.type = .leftParen then 1 else 0 := by
  cases h with
  | number h => simp [h]
  | constant c => simp [Symbol.token]
  | opens => simp [Symbol.token]
  | closes hstack htop | calls hstack htop =>
    subst hstack
    simp [opened_eq_zero_iff.2 htop, Symbol.token]
  | waits op h => rcases op.token_type with h | h <;> simp [h]
  | takes op =>
    have htop : opened (stack.takeWhile (bindsAtLeast op.precedence)) = 0 :=
      opened_eq_zero_iff.2 fun t ht => by simp [type_of_bindsAtLeast (List.mem_takeWhile_imp ht)]
    have hstack : opened stack = opened (stack.dropWhile (bindsAtLeast op.precedence)) :=
      calc opened stack
        _ = opened (stack.takeWhile (bindsAtLeast op.precedence) ++
            stack.dropWhile (bindsAtLeast op.precedence)) := by
          rw [List.takeWhile_append_dropWhile]
        _ = opened (stack.dropWhile (bindsAtLeast op.precedence)) := by
          rw [opened_append, htop, Nat.zero_add]
    simp [hstack, Operator.token, Symbol.token]

theorem type_resolve_eq_leftParen {previous : Option Token} {l : Lexeme} :
    (resolve previous l.token).type = .leftParen ↔ l = .symbol .openGroup := by
  rw [resolve_lexeme]
  split
  · next h => simp [h.2, Operator.token, Token.negation]
  · rcases l with n | _ | _ | op | f | c <;> simp [Lexeme.token, Symbol.token, Token.number]

theorem type_resolve_eq_rightParen {previous : Option Token} {l : Lexeme} :
    (resolve previous l.token).type = .rightParen ↔ l = .symbol .closeGroup := by
  rw [resolve_lexeme]
  split
  · next h => simp [h.2, Operator.token, Token.negation]
  · rcases l with n | _ | _ | op | f | c <;> simp [Lexeme.token, Symbol.token, Token.number]

/-- The stack holds one opening parenthesis for each open group, whatever else a lexeme takes off it. -/
theorem advance_groups {s : State} (hs : ∀ t ∈ s.stack, IsWaiting t) (l : Lexeme) :
    (∃ out s', s.advance l.token = .ok (out, s') ∧ (∀ t ∈ s'.stack, IsWaiting t) ∧
      l.group? (opened s.stack) = some (opened s'.stack)) ∨
      (s.advance l.token = .error (.evaluation .unexpectedClose) ∧ l.group? (opened s.stack) = none) := by
  rcases step_moves hs (scanned_resolve s.previous l) with ⟨out, stack, hstep, hmoves⟩ | ⟨ht, hnone, hstep⟩
  · left
    refine ⟨out, ⟨some (resolve s.previous l.token), stack⟩, s.advance_of_resolve rfl hstep,
      hmoves.waiting hs, ?_⟩
    have hopened := hmoves.opened_eq
    simp only [type_resolve_eq_leftParen, type_resolve_eq_rightParen] at hopened
    rcases l.group?_cases with rfl | rfl | ⟨hopen, hclose, hsame⟩
    · simpa [Lexeme.group?] using hopened.symm
    · have hpos : opened s.stack = opened stack + 1 := by simpa using hopened.symm
      rw [hpos]
      rfl
    · rw [hsame]
      simpa [hopen, hclose] using hopened.symm
  · right
    have hl : l = .symbol .closeGroup := type_resolve_eq_rightParen.1 (by rw [ht]; rfl)
    refine ⟨by rw [State.advance, hstep]; rfl, ?_⟩
    rw [hl, opened_eq_zero_iff.2 hnone]
    rfl

theorem run_groups (ls : List Lexeme) {s : State} (hs : ∀ t ∈ s.stack, IsWaiting t) :
    (∃ out s', s.run (ls.map Lexeme.token) = .ok (out, s') ∧ (∀ t ∈ s'.stack, IsWaiting t) ∧
      groups? (opened s.stack) ls = some (opened s'.stack)) ∨
      (s.run (ls.map Lexeme.token) = .error (.evaluation .unexpectedClose) ∧
        groups? (opened s.stack) ls = none) := by
  induction ls generalizing s with
  | nil => exact .inl ⟨[], s, rfl, hs, rfl⟩
  | cons l ls ih =>
    rw [List.map_cons, State.run, groups?_cons]
    rcases advance_groups hs l with ⟨out, s₁, hadvance, hs₁, hgroup⟩ | ⟨hadvance, hgroup⟩
    · rw [hadvance, hgroup]
      rcases ih hs₁ with ⟨rest, s', hrun, hs', hgroups⟩ | ⟨hrun, hgroups⟩
      · exact .inl ⟨out ++ rest, s', by simp [hrun, pure, Except.pure], hs', hgroups⟩
      · exact .inr ⟨by simp [hrun], hgroups⟩
    · rw [hadvance, hgroup]
      exact .inr ⟨rfl, rfl⟩

/-- What a conversion comes to, as far as parentheses decide on it. -/
theorem ofTokens_groups (ls : List Lexeme) :
    (groups? 0 ls = none ∧ ofTokens (ls.map Lexeme.token) = .error (.evaluation .unexpectedClose)) ∨
    (∃ n, groups? 0 ls = some (n + 1) ∧
      ofTokens (ls.map Lexeme.token) = .error (.evaluation .unclosedGroup)) ∨
    (groups? 0 ls = some 0 ∧ ∃ ps, ofTokens (ls.map Lexeme.token) = .ok ps) := by
  rcases run_groups ls waiting_start with ⟨out, s, hrun, hs, hgroups⟩ | ⟨hrun, hgroups⟩
  · have hgroups : groups? 0 ls = some (opened s.stack) := hgroups
    have hconvert := ofTokens_of_run hrun
    rcases waiting_cases hs with hnone | ⟨top, below, hstack, htop⟩
    · rw [opened_eq_zero_iff.2 hnone] at hgroups
      rw [finish_eq hnone] at hconvert
      exact .inr (.inr ⟨hgroups, _, hconvert⟩)
    · rw [hstack, finish_of_open htop] at hconvert
      refine .inr (.inl ⟨opened top + opened below, ?_, hconvert⟩)
      rw [hgroups, hstack]
      simp [Symbol.token]
      omega
  · have hconvert : ofTokens (ls.map Lexeme.token) = _ := convert_eq_run .start (ls.map Lexeme.token)
    rw [hrun] at hconvert
    exact .inl ⟨hgroups, hconvert⟩

end Postfix

/-! ## Parentheses that do not match -/

/-- Some first part closes more groups than it opens. -/
def ClosesTooMuch (ls : List Lexeme) : Prop :=
  ∃ us, us <+: ls ∧ us.count (.symbol .openGroup) < us.count (.symbol .closeGroup)

/-- All that is closed was open, but not all that is open is closed. -/
def LeavesOpen (ls : List Lexeme) : Prop :=
  ¬ ClosesTooMuch ls ∧ ls.count (.symbol .closeGroup) < ls.count (.symbol .openGroup)

theorem closesTooMuch_iff {ls : List Lexeme} : ClosesTooMuch ls ↔ groups? 0 ls = none := by
  simp [ClosesTooMuch, groups?_eq_none_iff]

theorem leavesOpen_of_groups? {ls : List Lexeme} {n : Nat} (h : groups? 0 ls = some n) :
    LeavesOpen ls ↔ n ≠ 0 := by
  have hcount := count_of_groups? h
  unfold LeavesOpen
  rw [closesTooMuch_iff, h]
  simp
  omega

section
variable {ls : List Lexeme}

theorem ofTokens_eq_unexpectedClose_iff :
    ofTokens (ls.map Lexeme.token) = .error (.evaluation .unexpectedClose) ↔ ClosesTooMuch ls := by
  rw [closesTooMuch_iff]
  rcases ofTokens_groups ls with ⟨hgroups, h⟩ | ⟨n, hgroups, h⟩ | ⟨hgroups, ps, h⟩ <;> simp [hgroups, h]

theorem ofTokens_eq_unclosedGroup_iff :
    ofTokens (ls.map Lexeme.token) = .error (.evaluation .unclosedGroup) ↔ LeavesOpen ls := by
  rcases ofTokens_groups ls with ⟨hgroups, h⟩ | ⟨n, hgroups, h⟩ | ⟨hgroups, ps, h⟩
  · have hclose : ClosesTooMuch ls := closesTooMuch_iff.2 hgroups
    simp [h, LeavesOpen, hclose]
  · simp [h, leavesOpen_of_groups? hgroups]
  · simp [h, leavesOpen_of_groups? hgroups]

theorem exists_ofTokens_iff :
    (∃ ps, ofTokens (ls.map Lexeme.token) = .ok ps) ↔ ¬ ClosesTooMuch ls ∧ ¬ LeavesOpen ls := by
  rw [← ofTokens_eq_unexpectedClose_iff, ← ofTokens_eq_unclosedGroup_iff]
  rcases ofTokens_groups ls with ⟨-, h⟩ | ⟨n, -, h⟩ | ⟨-, ps, h⟩ <;> simp [h]

end

/-- An evaluation that finds fault with the form of a sequence only counts what is left of it. -/
theorem evaluatePostfix_malformed {mode : AngleMode} {partially : Bool} {ps : List Token}
    (hps : ∀ t ∈ ps, t.IsPlain) {err : EvaluationError} (h : evaluatePostfix mode partially ps = .error err)
    (kind : err.kind = .malformedExpression) : err = .empty ∨ ∃ n, err = .leftover n := by
  have hfits := fits_depth mode fun t ht => (hps t ht).isKnown
  unfold evaluatePostfix at h
  cases hfold : ps.foldlM (evaluateToken mode) [] with
  | ok stack =>
    rw [hfold, ok_bind] at h
    unfold answer at h
    split at h
    · cases h; exact .inl rfl
    · split at h
      · cases h; exact .inr ⟨_, rfl⟩
      · cases h
  | error err' =>
    rw [hfold, error_bind] at h
    cases h
    rw [hfold] at hfits
    generalize depth? ps = d at hfits
    cases hfits with
    | invalid hkind | underflow hkind | unknown hkind => simp [hkind] at kind

/-- An error of the parentheses is that of the conversion, and comes before all others. -/
theorem evaluate_eq_error_iff {mode : AngleMode} {partially : Bool} {text : String} {err : EvaluationError}
    (h : err = .unexpectedClose ∨ err = .unclosedGroup) :
    evaluate mode partially text = .error (.evaluation err) ↔
      ofTokens (tokenize text) = .error (.evaluation err) := by
  unfold evaluate
  rcases ofTokens_scanned (Lexeme.scan text.toList) with ⟨ps, hps, hplain⟩ | ⟨err', herr, -⟩
  · rw [tokenize, hps, ok_bind]
    refine ⟨fun hresult => ?_, fun hresult => by cases hresult⟩
    cases hvalue : evaluatePostfix mode partially ps with
    | ok x => rw [hvalue] at hresult; cases hresult
    | error err' =>
      rw [hvalue] at hresult
      cases hresult
      have hkind : err.kind = .malformedExpression := by rcases h with rfl | rfl <;> rfl
      rcases evaluatePostfix_malformed hplain hvalue hkind with rfl | ⟨n, rfl⟩ <;> simp at h
  · rw [tokenize, herr, error_bind]
    simp

/-- A conversion fails exactly on parentheses that do not match, and a text with such parentheses fails on
them, whatever else is wrong with it. -/
theorem parentheses_precede_evaluation :
    (∀ ls : List Lexeme,
      (ofTokens (ls.map Lexeme.token) = .error (.evaluation .unexpectedClose) ↔ ClosesTooMuch ls) ∧
      (ofTokens (ls.map Lexeme.token) = .error (.evaluation .unclosedGroup) ↔ LeavesOpen ls) ∧
      ((∃ ps, ofTokens (ls.map Lexeme.token) = .ok ps) ↔ ¬ ClosesTooMuch ls ∧ ¬ LeavesOpen ls)) ∧
    (EvaluationError.unexpectedClose.kind = .malformedExpression ∧
      EvaluationError.unexpectedClose.message = "Mismatched parentheses: unexpected ')'") ∧
    (EvaluationError.unclosedGroup.kind = .malformedExpression ∧
      EvaluationError.unclosedGroup.message = "Mismatched parentheses: unclosed '('") ∧
    ∀ mode partially text,
      (evaluate mode partially text = .error (.evaluation .unexpectedClose) ↔
        ClosesTooMuch (Lexeme.scan text.toList)) ∧
      (evaluate mode partially text = .error (.evaluation .unclosedGroup) ↔
        LeavesOpen (Lexeme.scan text.toList)) := by
  refine ⟨fun ls => ?_, ⟨rfl, rfl⟩, ⟨rfl, rfl⟩, fun mode partially text => ?_⟩
  · exact ⟨ofTokens_eq_unexpectedClose_iff, ofTokens_eq_unclosedGroup_iff, exists_ofTokens_iff⟩
  · rw [evaluate_eq_error_iff (.inl rfl), evaluate_eq_error_iff (.inr rfl)]
    exact ⟨ofTokens_eq_unexpectedClose_iff, ofTokens_eq_unclosedGroup_iff⟩

end Reckoner
