import Mathlib.Data.List.TakeWhile
import Reckoner.Proofs.Forest
/-!
# Conversion to postfix order, step by step

Conversion as a machine: `State` is the token before and the stack of waiting operators, `State.advance`
reads one token, `State.run` a sequence. `convert_eq_run` says that a conversion is a run followed by
`finish`, and `run_append` that a run can be cut anywhere.

On scanned tokens only open groups and operators wait (`IsWaiting`), and both ways to take them off the
stack cut off its top part (`popTighter_eq`, `popGroup_append`). So each token makes one of seven `Moves`
(`step_moves`), and nothing fails but unmatched parentheses (`run_scanned`, `ofTokens_scanned`).
-/

namespace Reckoner.Postfix

/-! ## Runs -/

/-- Where a conversion stands: the token before, and the stack of waiting operators. -/
structure State where
  previous : Option Token
  stack : List Token

namespace State

/-- Before the first token. -/
def start : State := ⟨none, []⟩

/-- What a token puts out, and the state after it. -/
def advance (s : State) (t : Token) : Except Fault (List Token × State) := do
  let t := resolve s.previous t
  let (output, stack) ← step s.stack t
  return (output, ⟨some t, stack⟩)

def run (s : State) : List Token → Except Fault (List Token × State)
  | [] => return ([], s)
  | t :: ts => do
    let (output, s) ← s.advance t
    let (rest, s) ← s.run ts
    return (output ++ rest, s)

theorem run_append (s : State) (ts us : List Token) :
    s.run (ts ++ us) = do
      let (output, s) ← s.run ts
      let (rest, s) ← s.run us
      return (output ++ rest, s) := by
  induction ts generalizing s with
  | nil => simp [run]
  | cons t ts ih => simp [run, ih]

/-- Two runs one after the other. -/
theorem run_append_ok {s s₁ s₂ : State} {ts us out₁ out₂ : List Token} (h₁ : s.run ts = .ok (out₁, s₁))
    (h₂ : s₁.run us = .ok (out₂, s₂)) : s.run (ts ++ us) = .ok (out₁ ++ out₂, s₂) := by
  simp [run_append, h₁, h₂, pure, Except.pure]

theorem run_append_eq_ok {s s₂ : State} {ts us out : List Token} (h : s.run (ts ++ us) = .ok (out, s₂)) :
    ∃ out₁ s₁ out₂, s.run ts = .ok (out₁, s₁) ∧ s₁.run us = .ok (out₂, s₂) ∧ out = out₁ ++ out₂ := by
  rw [run_append] at h
  cases h₁ : s.run ts with
  | error f => rw [h₁] at h; cases h
  | ok r =>
    obtain ⟨out₁, s₁⟩ := r
    simp only [h₁, ok_bind] at h
    cases h₂ : s₁.run us with
    | error f => rw [h₂] at h; cases h
    | ok r =>
      rw [h₂] at h
      cases h
      exact ⟨out₁, s₁, r.1, rfl, h₂, rfl⟩

theorem run_cons_ok {s s₁ s₂ : State} {t : Token} {ts out₁ out₂ : List Token}
    (h₁ : s.advance t = .ok (out₁, s₁)) (h₂ : s₁.run ts = .ok (out₂, s₂)) :
    s.run (t :: ts) = .ok (out₁ ++ out₂, s₂) := by
  simp [run, h₁, h₂, pure, Except.pure]

theorem run_concat_ok {s s₁ s₂ : State} {t : Token} {ts out₁ out₂ : List Token}
    (h₁ : s.run ts = .ok (out₁, s₁)) (h₂ : s₁.advance t = .ok (out₂, s₂)) :
    s.run (ts ++ [t]) = .ok (out₁ ++ out₂, s₂) := by
  simp [run_append, run, h₁, h₂, pure, Except.pure]

end State

theorem convert_eq_run (s : State) (ts : List Token) :
    convert s.previous s.stack ts = (do
      let (output, s) ← s.run ts
      (output ++ ·) <$> finish s.stack) := by
  induction ts generalizing s with
  | nil => simp [convert, State.run]
  | cons t ts ih =>
    simp only [convert, State.run, State.advance, bind_assoc, pure_bind]
    congr 1; funext ⟨output, stack⟩
    simp [ih ⟨some (resolve s.previous t), stack⟩]

theorem ofTokens_of_run {ts out : List Token} {s : State} (h : State.start.run ts = .ok (out, s)) :
    ofTokens ts = (out ++ ·) <$> finish s.stack := by
  have := convert_eq_run .start ts
  rw [h] at this
  exact this

section
variable {s s' : State} {ts out : List Token}

/-- A conversion goes on after a run as it does by itself. -/
theorem convert_append (h : s.run ts = .ok (out, s')) (us : List Token) :
    convert s.previous s.stack (ts ++ us) = (out ++ ·) <$> convert s'.previous s'.stack us := by
  rw [convert_eq_run, convert_eq_run, State.run_append, h]
  cases hrun : s'.run us <;> simp [hrun]

theorem convert_append_error {f : Fault} (h : s.run ts = .error f) (us : List Token) :
    convert s.previous s.stack (ts ++ us) = .error f := by
  rw [convert_eq_run, State.run_append, h]
  rfl

end

/-! ## Taking off the stack -/

/-- Whether a waiting token goes before an operator of precedence `p`. -/
def bindsAtLeast (p : Int) (t : Token) : Bool := t.type = .operator && t.precedence.any (p ≤ ·)

/-- What waits on a stack of scanned tokens. -/
def IsWaiting (t : Token) : Prop := t = Symbol.openGroup.token ∨ ∃ op : Operator, t = op.token

theorem waiting_start : ∀ t ∈ State.start.stack, IsWaiting t := by simp [State.start]

theorem IsWaiting.isSome_precedence {t : Token} (h : IsWaiting t) (ht : t.type = .operator) :
    t.precedence.isSome := by
  rcases h with rfl | ⟨op | _ | f, rfl⟩
  · cases ht
  · rfl
  · rfl
  · cases ht

/-- An operator takes off the top part of the stack that binds at least as tightly. -/
theorem popTighter_eq {next : Token} {p : Int} (hp : next.precedence = some p) {stack : List Token}
    (hs : ∀ t ∈ stack, IsWaiting t) :
    popTighter next stack = .ok (stack.takeWhile (bindsAtLeast p), stack.dropWhile (bindsAtLeast p)) := by
  induction stack with
  | nil => rfl
  | cons t stack ih =>
    have ih := ih fun t ht => hs t (List.mem_cons_of_mem _ ht)
    unfold popTighter
    by_cases ht : t.type = .operator
    · obtain ⟨q, hq⟩ := Option.isSome_iff_exists.1 ((hs t List.mem_cons_self).isSome_precedence ht)
      by_cases hpq : p ≤ q
      · have hb : bindsAtLeast p t = true := by simp [bindsAtLeast, ht, hq, hpq]
        simp only [ht, if_true, bindsTighter, hp, hq, hpq, decide_true, ih, List.takeWhile_cons_of_pos hb,
          List.dropWhile_cons_of_pos hb]
        rfl
      · have hb : ¬ bindsAtLeast p t = true := by simp [bindsAtLeast, ht, hq, hpq]
        simp only [ht, if_true, bindsTighter, hp, hq, hpq, decide_false, List.takeWhile_cons_of_neg hb,
          List.dropWhile_cons_of_neg hb]
        rfl
    · have hb : ¬ bindsAtLeast p t = true := by simp [bindsAtLeast, ht]
      rw [if_neg ht, List.takeWhile_cons_of_neg hb, List.dropWhile_cons_of_neg hb]

/-- A closing parenthesis takes off everything down to its open group, and then one function. -/
theorem popGroup_append {top below : List Token} (h : ∀ t ∈ top, t.type ≠ .leftParen) :
    popGroup (top ++ Symbol.openGroup.token :: below) =
      match below with
      | [] => .ok (top, [])
      | t :: rest => if t.type = .function then .ok (top ++ [t], rest) else .ok (top, below) := by
  have htake : (top ++ Symbol.openGroup.token :: below).takeWhile (·.type ≠ .leftParen) = top := by
    rw [List.takeWhile_append_of_pos (by simpa using h)]
    simp [Symbol.token]
  have hdrop : (top ++ Symbol.openGroup.token :: below).dropWhile (·.type ≠ .leftParen) =
      Symbol.openGroup.token :: below := by
    rw [List.dropWhile_append_of_pos (by simpa using h)]
    simp [Symbol.token]
  unfold popGroup
  rw [htake, hdrop]
  cases below <;> rfl

theorem popGroup_of_not_open {stack : List Token} (h : ∀ t ∈ stack, t.type ≠ .leftParen) :
    popGroup stack = .error (.evaluation .unexpectedClose) := by
  have hdrop : stack.dropWhile (·.type ≠ .leftParen) = [] := by
    rw [List.dropWhile_eq_nil_iff]; simpa using h
  unfold popGroup
  rw [hdrop]

theorem finish_eq {stack : List Token} (h : ∀ t ∈ stack, t.type ≠ .leftParen) : finish stack = .ok stack := by
  induction stack with
  | nil => rfl
  | cons t stack ih =>
    rw [finish, if_neg (h t List.mem_cons_self), ih fun t ht => h t (List.mem_cons_of_mem _ ht)]
    rfl

/-- Only what holds no open group can be finished. -/
theorem finish_eq_ok {stack rest : List Token} (h : finish stack = .ok rest) :
    (∀ t ∈ stack, t.type ≠ .leftParen) ∧ rest = stack := by
  induction stack generalizing rest with
  | nil => cases h; exact ⟨by simp, rfl⟩
  | cons t stack ih =>
    unfold finish at h
    by_cases ht : t.type = .leftParen
    · rw [if_pos ht] at h
      cases h
    · rw [if_neg ht] at h
      cases hstack : finish stack with
      | error f => rw [hstack] at h; cases h
      | ok rest' =>
        rw [hstack] at h
        cases h
        obtain ⟨hopen, rfl⟩ := ih hstack
        exact ⟨by simpa using ⟨ht, hopen⟩, rfl⟩

/-- A conversion that succeeds puts out what its run puts out and then all that is left waiting. -/
theorem convert_eq_ok {s : State} {ts ps : List Token} (h : convert s.previous s.stack ts = .ok ps) :
    ∃ out s', s.run ts = .ok (out, s') ∧ (∀ t ∈ s'.stack, t.type ≠ .leftParen) ∧ ps = out ++ s'.stack := by
  rw [convert_eq_run] at h
  cases hrun : s.run ts with
  | error f => rw [hrun] at h; cases h
  | ok r =>
    obtain ⟨out, s'⟩ := r
    rw [hrun, ok_bind] at h
    cases hfinish : finish s'.stack with
    | error f => simp only [hfinish] at h; cases h
    | ok rest =>
      simp only [hfinish] at h
      cases h
      obtain ⟨hopen, rfl⟩ := finish_eq_ok hfinish
      exact ⟨out, s', rfl, hopen, rfl⟩

/-- A stack of scanned tokens has a topmost open group, or none. -/
theorem waiting_cases {stack : List Token} (hs : ∀ t ∈ stack, IsWaiting t) :
    (∀ t ∈ stack, t.type ≠ .leftParen) ∨
      ∃ top below, stack = top ++ Symbol.openGroup.token :: below ∧ ∀ t ∈ top, t.type ≠ .leftParen := by
  induction stack with
  | nil => exact .inl (by simp)
  | cons t stack ih =>
    rcases hs t List.mem_cons_self with rfl | ⟨op, rfl⟩
    · exact .inr ⟨[], stack, rfl, by simp⟩
    · have hop : op.token.type ≠ .leftParen := by rcases op.token_type with h | h <;> simp [h]
      rcases ih fun t ht => hs t (List.mem_cons_of_mem _ ht) with h | ⟨top, below, rfl, h⟩
      · exact .inl (by simpa [hop] using h)
      · exact .inr ⟨op.token :: top, below, rfl, by simpa [hop] using h⟩

theorem IsWaiting.isPlain {t : Token} (h : IsWaiting t) (ht : t.type ≠ .leftParen) : t.IsPlain := by
  rcases h with rfl | ⟨op, rfl⟩
  · exact absurd rfl ht
  · exact Token.isPlain_iff.2 (.inr ⟨op, rfl⟩)

/-- An open group that is left fails, whatever waits above it. -/
theorem finish_of_open {top below : List Token} (h : ∀ t ∈ top, t.type ≠ .leftParen) :
    finish (top ++ Symbol.openGroup.token :: below) = .error (.evaluation .unclosedGroup) := by
  induction top with
  | nil => rfl
  | cons t top ih =>
    rw [List.cons_append, finish, if_neg (h t List.mem_cons_self),
      ih fun t ht => h t (List.mem_cons_of_mem _ ht)]
    rfl

/-! ## Scanned tokens -/

/-- The tokens of a text as they count in a conversion. -/
inductive Scanned : Token → Prop
  | number {t : Token} (h : t.type = .number) : Scanned t
  | constant (c : Constant) : Scanned (Symbol.constant c).token
  | openGroup : Scanned Symbol.openGroup.token
  | closeGroup : Scanned Symbol.closeGroup.token
  | operator (op : Operator) : Scanned op.token

theorem scanned_resolve (previous : Option Token) (l : Lexeme) : Scanned (resolve previous l.token) := by
  unfold resolve
  split
  · exact .operator .negation
  · cases l with
    | literal n => exact .number rfl
    | symbol s =>
      cases s with
      | openGroup => exact .openGroup
      | closeGroup => exact .closeGroup
      | binary op => exact .operator (.binary op)
      | function f => exact .operator (.function f)
      | constant c => exact .constant c

theorem step_number {t : Token} (h : t.type = .number) (stack : List Token) :
    step stack t = .ok ([t], stack) := by
  simp [step, h]

theorem step_unary (op : Operator) (h : op.arity = 1) (stack : List Token) :
    step stack op.token = .ok ([], op.token :: stack) := by
  rcases op.token_type with ht | ht <;> simp [step, ht, h]

theorem step_binary (op : BinaryOp) {stack : List Token} (hs : ∀ t ∈ stack, IsWaiting t) :
    step stack (Operator.binary op).token =
      .ok (stack.takeWhile (bindsAtLeast op.precedence),
        (Operator.binary op).token :: stack.dropWhile (bindsAtLeast op.precedence)) := by
  have hpop : popTighter (Operator.binary op).token stack = _ := popTighter_eq rfl hs
  simp only [step, Operator.token, Symbol.token] at hpop ⊢
  rw [hpop]
  rfl

section
variable {top below : List Token} (h : ∀ t ∈ top, t.type ≠ .leftParen)
include h

theorem step_closeGroup (hbelow : ∀ t ∈ below.head?, t.type ≠ .function) :
    step (top ++ Symbol.openGroup.token :: below) Symbol.closeGroup.token = .ok (top, below) := by
  have hstep : step (top ++ Symbol.openGroup.token :: below) Symbol.closeGroup.token = _ := popGroup_append h
  rw [hstep]
  cases below with
  | nil => rfl
  | cons t rest => simp [hbelow t rfl]

theorem step_closeCall {f : Func} :
    step (top ++ Symbol.openGroup.token :: (Symbol.function f).token :: below) Symbol.closeGroup.token =
      .ok (top ++ [(Symbol.function f).token], below) :=
  popGroup_append h

end

/-- What a scanned token puts out of a stack, and the stack that it leaves. -/
inductive Moves (stack : List Token) : Token → List Token → List Token → Prop
  | number {t : Token} (h : t.type = .number) : Moves stack t [t] stack
  | constant (c : Constant) : Moves stack (Symbol.constant c).token [.number c.value c.spelling] stack
  | opens : Moves stack Symbol.openGroup.token [] (Symbol.openGroup.token :: stack)
  | closes {top below : List Token} (hstack : stack = top ++ Symbol.openGroup.token :: below)
      (htop : ∀ t ∈ top, t.type ≠ .leftParen) (hbelow : ∀ t ∈ below.head?, t.type ≠ .function) :
      Moves stack Symbol.closeGroup.token top below
  | calls {f : Func} {top below : List Token}
      (hstack : stack = top ++ Symbol.openGroup.token :: (Symbol.function f).token :: below)
      (htop : ∀ t ∈ top, t.type ≠ .leftParen) :
      Moves stack Symbol.closeGroup.token (top ++ [(Symbol.function f).token]) below
  | waits (op : Operator) (h : op.arity = 1) : Moves stack op.token [] (op.token :: stack)
  | takes (op : BinaryOp) :
      Moves stack (Operator.binary op).token (stack.takeWhile (bindsAtLeast op.precedence))
        ((Operator.binary op).token :: stack.dropWhile (bindsAtLeast op.precedence))

theorem IsWaiting.exists_function {t : Token} (h : IsWaiting t) (ht : t.type = .function) :
    ∃ f, t = (Symbol.function f).token := by
  rcases h with rfl | ⟨op | _ | f, rfl⟩
  · cases ht
  · cases ht
  · cases ht
  · exact ⟨f, rfl⟩

/-- One scanned token moves on, or it is a parenthesis that closes nothing. -/
theorem step_moves {stack : List Token} (hs : ∀ t ∈ stack, IsWaiting t) {t : Token} (ht : Scanned t) :
    (∃ out stack', step stack t = .ok (out, stack') ∧ Moves stack t out stack') ∨
      (t = Symbol.closeGroup.token ∧ (∀ t ∈ stack, t.type ≠ .leftParen) ∧
        step stack t = .error (.evaluation .unexpectedClose)) := by
  cases ht with
  | number h => exact .inl ⟨_, _, step_number h stack, .number h⟩
  | constant c => exact .inl ⟨_, _, rfl, .constant c⟩
  | openGroup => exact .inl ⟨_, _, rfl, .opens⟩
  | closeGroup =>
    rcases waiting_cases hs with h | ⟨top, below, rfl, h⟩
    · exact .inr ⟨rfl, h, popGroup_of_not_open h⟩
    · left
      by_cases hbelow : ∀ t ∈ below.head?, t.type ≠ .function
      · exact ⟨top, below, step_closeGroup h hbelow, .closes rfl h hbelow⟩
      · push Not at hbelow
        obtain ⟨u, hu, htype⟩ := hbelow
        obtain ⟨rest, rfl⟩ := List.head?_eq_some_iff.1 hu
        obtain ⟨f, rfl⟩ := (hs u (by simp)).exists_function htype
        exact ⟨_, rest, step_closeCall h, .calls rfl h⟩
  | operator op =>
    left
    cases op with
    | binary op => exact ⟨_, _, step_binary op hs, .takes op⟩
    | negation => exact ⟨_, _, step_unary .negation rfl stack, .waits .negation rfl⟩
    | function f => exact ⟨_, _, step_unary (.function f) rfl stack, .waits (.function f) rfl⟩

theorem type_of_bindsAtLeast {p : Int} {t : Token} (h : bindsAtLeast p t = true) : t.type = .operator := by
  simp only [bindsAtLeast, Bool.and_eq_true, decide_eq_true_eq] at h
  exact h.1

section
variable {stack out stack' : List Token} {t : Token}

/-- What is put out computes. -/
theorem Moves.isPlain (h : Moves stack t out stack') (hs : ∀ t ∈ stack, IsWaiting t) :
    ∀ t ∈ out, t.IsPlain := by
  cases h with
  | number h => simp [Token.IsPlain, h]
  | constant c => simp [Token.IsPlain, Token.number]
  | opens | waits => simp
  | closes hstack htop hbelow =>
    subst hstack
    exact fun t ht => (hs t (by simp [ht])).isPlain (htop t ht)
  | @calls f top below hstack htop =>
    subst hstack
    intro t ht
    rcases List.mem_append.1 ht with ht | ht
    · exact (hs t (by simp [ht])).isPlain (htop t ht)
    · obtain rfl := List.mem_singleton.1 ht
      exact Token.isPlain_iff.2 (.inr ⟨.function f, rfl⟩)
  | takes op =>
    intro t ht
    have htype := type_of_bindsAtLeast (List.mem_takeWhile_imp ht)
    exact (hs t ((List.takeWhile_sublist _).subset ht)).isPlain (by simp [htype])

/-- What stays waits. -/
theorem Moves.waiting (h : Moves stack t out stack') (hs : ∀ t ∈ stack, IsWaiting t) :
    ∀ t ∈ stack', IsWaiting t := by
  cases h with
  | number | constant => exact hs
  | opens => simpa [IsWaiting] using hs
  | closes hstack | calls hstack =>
    subst hstack
    exact fun t ht => hs t (by simp [ht])
  | waits op h => simpa using ⟨.inr ⟨op, rfl⟩, hs⟩
  | takes op => simpa using ⟨.inr ⟨.binary op, rfl⟩, fun t ht => hs t ((List.dropWhile_sublist _).subset ht)⟩

end

/-- One scanned token puts out what computes and leaves only what waits, or it is a parenthesis that
closes nothing. -/
theorem step_scanned {stack : List Token} (hs : ∀ t ∈ stack, IsWaiting t) {t : Token} (ht : Scanned t) :
    (∃ out stack', step stack t = .ok (out, stack') ∧ (∀ t ∈ out, t.IsPlain) ∧ ∀ t ∈ stack', IsWaiting t) ∨
      step stack t = .error (.evaluation .unexpectedClose) := by
  rcases step_moves hs ht with ⟨out, stack', hstep, hmoves⟩ | ⟨-, -, hstep⟩
  · exact .inl ⟨out, stack', hstep, hmoves.isPlain hs, hmoves.waiting hs⟩
  · exact .inr hstep

/-- A run that comes to an end moves with its first token and goes on from there. -/
theorem State.run_cons_eq_ok {s s' : State} (hs : ∀ t ∈ s.stack, IsWaiting t) {l : Lexeme}
    {ls : List Lexeme} {out : List Token} (h : s.run ((l :: ls).map Lexeme.token) = .ok (out, s')) :
    ∃ out₁ stack out₂, Moves s.stack (resolve s.previous l.token) out₁ stack ∧
      (∀ t ∈ stack, IsWaiting t) ∧
      State.run ⟨some (resolve s.previous l.token), stack⟩ (ls.map Lexeme.token) = .ok (out₂, s') ∧
      out = out₁ ++ out₂ := by
  rw [List.map_cons, State.run, State.advance] at h
  rcases step_moves hs (scanned_resolve s.previous l) with ⟨out₁, stack, hstep, hmoves⟩ | ⟨-, -, hstep⟩
  · rw [hstep] at h
    cases hrun : State.run ⟨some (resolve s.previous l.token), stack⟩ (ls.map Lexeme.token) with
    | error f => simp [hrun] at h
    | ok r =>
      simp only [ok_bind, hrun, pure, Except.pure, Except.ok.injEq, Prod.mk.injEq] at h
      obtain ⟨rfl, rfl⟩ := h
      exact ⟨out₁, stack, r.1, hmoves, hmoves.waiting hs, hrun, rfl⟩
  · rw [hstep] at h
    cases h

/-- A run over scanned tokens fails only on a parenthesis that closes nothing. -/
theorem run_scanned (ls : List Lexeme) {s : State} (hs : ∀ t ∈ s.stack, IsWaiting t) :
    (∃ out s', s.run (ls.map Lexeme.token) = .ok (out, s') ∧ (∀ t ∈ out, t.IsPlain) ∧
      ∀ t ∈ s'.stack, IsWaiting t) ∨
      s.run (ls.map Lexeme.token) = .error (.evaluation .unexpectedClose) := by
  induction ls generalizing s with
  | nil => exact .inl ⟨[], s, rfl, by simp, hs⟩
  | cons l ls ih =>
    rw [List.map_cons, State.run, State.advance]
    rcases step_scanned hs (scanned_resolve s.previous l) with ⟨out, stack, hstep, hout, hstack⟩ | hstep
    · rw [hstep]
      rcases ih (s := ⟨some (resolve s.previous l.token), stack⟩) hstack with
        ⟨rest, s', hrun, hrest, hs'⟩ | hrun
      · refine .inl ⟨out ++ rest, s', by simp [hrun], fun t ht => ?_, hs'⟩
        exact (List.mem_append.1 ht).elim (hout t) (hrest t)
      · exact .inr (by simp [hrun])
    · rw [hstep]
      exact .inr rfl

theorem run_waiting {ls : List Lexeme} {s s' : State} {out : List Token} (hs : ∀ t ∈ s.stack, IsWaiting t)
    (h : s.run (ls.map Lexeme.token) = .ok (out, s')) : ∀ t ∈ s'.stack, IsWaiting t := by
  rcases run_scanned ls hs with ⟨out, s', hrun, -, hs'⟩ | hrun
  · rw [hrun] at h
    cases h
    exact hs'
  · rw [hrun] at h
    cases h

theorem finish_waiting {stack : List Token} (hs : ∀ t ∈ stack, IsWaiting t) :
    (∃ out, finish stack = .ok out ∧ ∀ t ∈ out, t.IsPlain) ∨
      finish stack = .error (.evaluation .unclosedGroup) := by
  rcases waiting_cases hs with h | ⟨top, below, rfl, h⟩
  · exact .inl ⟨stack, finish_eq h, fun t ht => (hs t ht).isPlain (h t ht)⟩
  · exact .inr (finish_of_open h)

/-- A conversion of scanned tokens puts out only what computes, or fails on a parenthesis. -/
theorem ofTokens_scanned (ls : List Lexeme) :
    (∃ ps, ofTokens (ls.map Lexeme.token) = .ok ps ∧ ∀ t ∈ ps, t.IsPlain) ∨
      ∃ err, ofTokens (ls.map Lexeme.token) = .error (.evaluation err) ∧ err.kind = .malformedExpression := by
  have hconvert : ofTokens (ls.map Lexeme.token) = _ := convert_eq_run .start (ls.map Lexeme.token)
  rcases run_scanned ls waiting_start with ⟨out, s, hrun, hout, hs⟩ | hrun
  · rw [hrun] at hconvert
    rcases finish_waiting hs with ⟨rest, hrest, hplain⟩ | hrest
    · refine .inl ⟨out ++ rest, by simp [hconvert, hrest], fun t ht => ?_⟩
      exact (List.mem_append.1 ht).elim (hout t) (hplain t)
    · exact .inr ⟨.unclosedGroup, by simp [hconvert, hrest], rfl⟩
  · exact .inr ⟨.unexpectedClose, by simp [hconvert, hrun], rfl⟩

end Reckoner.Postfix
