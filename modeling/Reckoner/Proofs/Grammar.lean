import Reckoner.Proofs.Conversion
/-!
# The grammar of expressions

`Derives p bare ls e` says that the lexemes `ls` are an expression with the tree `e` whose operators
outside of groups have at least the precedence `p`. Every level groups to the left, a minus before a
primary binds tighter than every operator, and a function takes a group or, bare, everything up to the
end of the group around it.

Conversion puts out the tree in post-order (`ofTokens_derives`). The induction goes over derivations in
any state where an operand is due (`Ready`): once the expression is read, its output and the operators
that it left waiting are together the tokens of its tree (`Reads`).
-/

namespace Reckoner

/-- An operand as it is written. -/
inductive Atom where
  | literal (n : Literal)
  | constant (c : Constant)
  deriving DecidableEq

namespace Atom

def lexeme : Atom → Lexeme
  | literal n => .literal n
  | constant c => .symbol (.constant c)

/-- The number token of an atom; a constant keeps its name. -/
def token : Atom → Token
  | literal n => .number n.value n.spelling
  | constant c => .number c.value c.spelling

theorem token_type (a : Atom) : a.token.type = .number := by cases a <;> rfl

instance : Operand Atom := ⟨token, token_type⟩

end Atom

/-! ## Grammar -/

/-- The level of a primary: above every binary operator. -/
def primaryLevel : Int := 4

theorem precedence_lt_primaryLevel (op : BinaryOp) : op.precedence < primaryLevel := by
  cases op <;> decide

/-- An expression with tree `e` and no operator below precedence `p` outside of groups. A bare one ends
in a function without a group, so nothing follows it in the group around it. -/
inductive Derives : (p : Int) → (bare : Bool) → List Lexeme → Expression Atom → Prop
  | atom {p : Int} (a : Atom) : Derives p false [a.lexeme] (.operand a)
  | group {p : Int} {bare : Bool} {ls : List Lexeme} {e : Expression Atom} :
      Derives 1 bare ls e → Derives p false (.symbol .openGroup :: ls ++ [.symbol .closeGroup]) e
  | call {p : Int} {bare : Bool} {ls : List Lexeme} {e : Expression Atom} (f : Func) :
      Derives 1 bare ls e →
      Derives p false (.symbol (.function f) :: .symbol .openGroup :: ls ++ [.symbol .closeGroup]) (.call f e)
  | bareCall {p : Int} {bare : Bool} {ls : List Lexeme} {e : Expression Atom} (f : Func) :
      Derives 1 bare ls e → ls.head? ≠ some (.symbol .openGroup) →
      Derives p true (.symbol (.function f) :: ls) (.call f e)
  | negate {p : Int} {bare : Bool} {ls : List Lexeme} {e : Expression Atom} :
      Derives primaryLevel bare ls e → Derives p bare (.symbol (.binary .sub) :: ls) (.negate e)
  | binary {p : Int} {bare : Bool} {ls ms : List Lexeme} {a b : Expression Atom} (op : BinaryOp) :
      p ≤ op.precedence → Derives op.precedence false ls a → Derives (op.precedence + 1) bare ms b →
      Derives p bare (ls ++ .symbol (.binary op) :: ms) (.binary op a b)

namespace Derives

/-- A level takes everything that a tighter one takes. -/
theorem mono {p q : Int} {bare : Bool} {ls : List Lexeme} {e : Expression Atom} (h : Derives p bare ls e)
    (hqp : q ≤ p) : Derives q bare ls e := by
  cases h with
  | atom a => exact .atom a
  | group h => exact .group h
  | call f h => exact .call f h
  | bareCall f h hne => exact .bareCall f h hne
  | negate h => exact .negate h
  | binary op hp ha hb => exact .binary op (by omega) ha hb

end Derives

/-! ## Reading one token -/

@[simp] theorem Lexeme.token_symbol (s : Symbol) : (Lexeme.symbol s).token = s.token := rfl

namespace Postfix

theorem resolve_of_name_ne {t : Token} (h : t.name ≠ "-") (previous : Option Token) :
    resolve previous t = t := by
  simp [resolve, h]

theorem resolve_of_operand {previous : Option Token} (h : expectsOperand previous = false) (t : Token) :
    resolve previous t = t := by
  simp [resolve, h]

theorem resolve_minus {previous : Option Token} (h : expectsOperand previous = true) :
    resolve previous (Symbol.binary .sub).token = Operator.negation.token := by
  simp [resolve, h, Symbol.token, BinaryOp.spelling, Operator.token]

theorem literal_spelling_ne (n : Literal) : n.spelling ≠ "-" := by
  intro h
  have hc : n.characters = ['-'] := by
    simpa [Literal.spelling] using congrArg String.toList h
  have hd := n.whole_digits
  cases hw : n.whole with
  | nil => exact n.whole_ne_nil hw
  | cons c cs =>
    simp only [Literal.characters, hw, List.cons_append, List.cons.injEq] at hc
    rw [hw, List.all_cons, hc.1] at hd
    simp at hd

theorem name_eq_minus_iff (l : Lexeme) : l.token.name = "-" ↔ l = .symbol (.binary .sub) := by
  constructor
  · intro h
    rcases l with n | _ | _ | op | f | c
    case literal => exact absurd h (literal_spelling_ne n)
    case symbol.openGroup | symbol.closeGroup => exact absurd h (by decide)
    case symbol.binary =>
      cases op with
      | sub => rfl
      | _ => exact absurd h (by decide)
    case symbol.function => cases f <;> exact absurd h (by decide)
    case symbol.constant => cases c <;> exact absurd h (by decide)
  · rintro rfl
    rfl

/-- A token is read as it is, but for a minus where an operand is due. -/
theorem resolve_lexeme (previous : Option Token) (l : Lexeme) :
    resolve previous l.token =
      if expectsOperand previous = true ∧ l = .symbol (.binary .sub) then Operator.negation.token
      else l.token := by
  unfold resolve
  simp only [Bool.and_eq_true, decide_eq_true_eq, name_eq_minus_iff, and_comm]
  rfl

namespace State
variable (s : State)

theorem advance_of_resolve {t u : Token} {out stack : List Token} (hu : resolve s.previous t = u)
    (h : step s.stack u = .ok (out, stack)) : s.advance t = .ok (out, ⟨some u, stack⟩) := by
  rw [advance, hu, h]
  rfl

theorem advance_atom (a : Atom) :
    s.advance a.lexeme.token = .ok ([a.token], ⟨some a.lexeme.token, s.stack⟩) := by
  refine s.advance_of_resolve (resolve_of_name_ne ?_ _) (by cases a <;> rfl)
  cases a with
  | literal n => exact literal_spelling_ne n
  | constant c => cases c <;> decide

theorem advance_openGroup :
    s.advance Symbol.openGroup.token =
      .ok ([], ⟨some Symbol.openGroup.token, Symbol.openGroup.token :: s.stack⟩) :=
  s.advance_of_resolve (resolve_of_name_ne (by decide) _) rfl

theorem advance_function (f : Func) :
    s.advance (Symbol.function f).token =
      .ok ([], ⟨some (Symbol.function f).token, (Symbol.function f).token :: s.stack⟩) :=
  s.advance_of_resolve (resolve_of_name_ne (by cases f <;> decide) _) rfl

theorem advance_negation (h : expectsOperand s.previous = true) :
    s.advance (Symbol.binary .sub).token =
      .ok ([], ⟨some Operator.negation.token, Operator.negation.token :: s.stack⟩) :=
  s.advance_of_resolve (resolve_minus h) rfl

theorem advance_binary (op : BinaryOp) (h : op = .sub → expectsOperand s.previous = false)
    (hs : ∀ t ∈ s.stack, IsWaiting t) :
    s.advance (Symbol.binary op).token =
      .ok (s.stack.takeWhile (bindsAtLeast op.precedence), ⟨some (Symbol.binary op).token,
        (Symbol.binary op).token :: s.stack.dropWhile (bindsAtLeast op.precedence)⟩) := by
  refine s.advance_of_resolve ?_ (step_binary op hs)
  by_cases hsub : op = .sub
  · exact resolve_of_operand (h hsub) _
  · refine resolve_of_name_ne (mt (name_eq_minus_iff (.symbol (.binary op))).1 ?_) _
    simpa using hsub

/-- A closing parenthesis puts out what waits in its group. -/
theorem advance_closeGroup {pending below : List Token}
    (hs : s.stack = pending ++ Symbol.openGroup.token :: below) (h : ∀ t ∈ pending, t.type ≠ .leftParen)
    (hbelow : ∀ t ∈ below.head?, t.type ≠ .function) :
    s.advance Symbol.closeGroup.token = .ok (pending, ⟨some Symbol.closeGroup.token, below⟩) := by
  refine s.advance_of_resolve (resolve_of_name_ne (by decide) _) ?_
  rw [hs, step_closeGroup h hbelow]

/-- A closing parenthesis puts out a function right before its group, too. -/
theorem advance_closeCall {f : Func} {pending below : List Token}
    (hs : s.stack = pending ++ Symbol.openGroup.token :: (Symbol.function f).token :: below)
    (h : ∀ t ∈ pending, t.type ≠ .leftParen) :
    s.advance Symbol.closeGroup.token =
      .ok (pending ++ [(Symbol.function f).token], ⟨some Symbol.closeGroup.token, below⟩) := by
  refine s.advance_of_resolve (resolve_of_name_ne (by decide) _) ?_
  rw [hs, step_closeCall h]

end State

end Postfix

/-! ## Reading an expression -/

open Postfix

/-- An expression of level `p` may begin: an operand is due, and none of the operators of the expression
takes anything off the stack. -/
structure Ready (p : Int) (s : State) : Prop where
  level : p ≤ primaryLevel
  operand : expectsOperand s.previous = true
  waiting : ∀ t ∈ s.stack, IsWaiting t
  loose : ∀ op : BinaryOp, p ≤ op.precedence → s.stack.takeWhile (bindsAtLeast op.precedence) = []

/-- After a token that waits and wants an operand. -/
theorem Ready.push {p : Int} {stack : List Token} {t : Token} (hp : p ≤ primaryLevel)
    (hs : ∀ t ∈ stack, IsWaiting t) (ht : IsWaiting t)
    (hloose : ∀ op : BinaryOp, p ≤ op.precedence → bindsAtLeast op.precedence t = false) :
    Ready p ⟨some t, t :: stack⟩ where
  level := hp
  operand := by
    rcases ht with rfl | ⟨op, rfl⟩
    · rfl
    · rcases op.token_type with h | h <;> simp [expectsOperand, h]
  waiting := by simpa using ⟨ht, hs⟩
  loose op hop := List.takeWhile_cons_of_neg (by simp [hloose op hop])

/-- An expression was read: what was put out and the operators left pending on the stack are its tokens.
Unless it is bare, all that is pending binds at least as tightly as its level. -/
structure Reads (p : Int) (bare : Bool) (s : State) (ts : List Token) (e : Expression Atom)
    (out pending : List Token) (last : Token) : Prop where
  run : s.run ts = .ok (out, ⟨some last, pending ++ s.stack⟩)
  tokens : out ++ pending = e.postorder
  operand : expectsOperand (some last) = false
  operators : ∀ t ∈ pending, ∃ op : Operator, t = op.token
  tight : bare = false → ∀ t ∈ pending, bindsAtLeast p t = true

theorem Reads.not_leftParen {p : Int} {bare : Bool} {s : State} {ts : List Token} {e : Expression Atom}
    {out pending : List Token} {last : Token} (h : Reads p bare s ts e out pending last) :
    ∀ t ∈ pending, t.type ≠ .leftParen := by
  intro t ht
  obtain ⟨op, rfl⟩ := h.operators t ht
  rcases op.token_type with h | h <;> simp [h]

theorem bindsAtLeast_mono {p q : Int} (h : p ≤ q) {t : Token} (ht : bindsAtLeast q t = true) :
    bindsAtLeast p t = true := by
  simp only [bindsAtLeast, Bool.and_eq_true, Option.any_eq_true] at ht ⊢
  obtain ⟨htype, r, hr, hq⟩ := ht
  exact ⟨htype, r, hr, by simp at hq ⊢; omega⟩

@[simp] theorem bindsAtLeast_binary (p : Int) (op : BinaryOp) :
    bindsAtLeast p (Symbol.binary op).token = decide (p ≤ op.precedence) := by
  simp [bindsAtLeast, Symbol.token]

section
variable {p : Int} {bare : Bool} {s : State} {ts us : List Token} {e a b : Expression Atom}
  {out pending out' pending' : List Token} {last last' : Token}

theorem reads_atom (a : Atom) : Reads p false s [a.lexeme.token] (.operand a) [a.token] [] a.lexeme.token where
  run := by simpa [State.run] using s.advance_atom a
  tokens := rfl
  operand := by cases a <;> rfl
  operators := by simp
  tight := by simp

theorem reads_group
    (h : Reads 1 bare ⟨some Symbol.openGroup.token, Symbol.openGroup.token :: s.stack⟩ ts e out pending last)
    (hbelow : ∀ t ∈ s.stack.head?, t.type ≠ .function) :
    Reads p false s (Symbol.openGroup.token :: ts ++ [Symbol.closeGroup.token]) e (out ++ pending) []
      Symbol.closeGroup.token where
  run := State.run_concat_ok (State.run_cons_ok s.advance_openGroup h.run)
    (State.advance_closeGroup _ rfl h.not_leftParen hbelow)
  tokens := by simpa using h.tokens
  operand := rfl
  operators := by simp
  tight := by simp

theorem reads_call {f : Func} (h : Reads 1 bare ⟨some Symbol.openGroup.token,
      Symbol.openGroup.token :: (Symbol.function f).token :: s.stack⟩ ts e out pending last) :
    Reads p false s ((Symbol.function f).token :: Symbol.openGroup.token :: ts ++ [Symbol.closeGroup.token])
      (.call f e) (out ++ (pending ++ [(Symbol.function f).token])) [] Symbol.closeGroup.token where
  run := State.run_concat_ok
    (State.run_cons_ok (s.advance_function f) (State.run_cons_ok (State.advance_openGroup _) h.run))
    (State.advance_closeCall _ rfl h.not_leftParen)
  tokens := by simp [Expression.postorder, ← h.tokens, Operator.token]
  operand := rfl
  operators := by simp
  tight := by simp

theorem reads_bareCall {f : Func}
    (h : Reads 1 bare ⟨some (Symbol.function f).token, (Symbol.function f).token :: s.stack⟩ ts e out pending
      last) :
    Reads p true s ((Symbol.function f).token :: ts) (.call f e) out (pending ++ [(Symbol.function f).token])
      last where
  run := by simpa using State.run_cons_ok (s.advance_function f) h.run
  tokens := by simp [Expression.postorder, ← h.tokens, Operator.token]
  operand := h.operand
  operators t ht := by
    rcases List.mem_append.1 ht with ht | ht
    · exact h.operators t ht
    · exact ⟨.function f, List.mem_singleton.1 ht⟩
  tight := by simp

theorem reads_negate (hs : Ready p s)
    (h : Reads primaryLevel bare ⟨some Operator.negation.token, Operator.negation.token :: s.stack⟩ ts e out
      pending last) :
    Reads p bare s ((Symbol.binary .sub).token :: ts) (.negate e) out (pending ++ [Operator.negation.token])
      last where
  run := by simpa using State.run_cons_ok (s.advance_negation hs.operand) h.run
  tokens := by simp [Expression.postorder, ← h.tokens]
  operand := h.operand
  operators t ht := by
    rcases List.mem_append.1 ht with ht | ht
    · exact h.operators t ht
    · exact ⟨.negation, List.mem_singleton.1 ht⟩
  tight hb t ht := by
    rcases List.mem_append.1 ht with ht | ht
    · exact bindsAtLeast_mono hs.level (h.tight hb t ht)
    · obtain rfl := List.mem_singleton.1 ht
      exact bindsAtLeast_mono hs.level rfl

/-- The operator takes off exactly what its left operand left pending. -/
theorem reads_binary {op : BinaryOp} (hs : Ready p s) (hp : p ≤ op.precedence)
    (ha : Reads op.precedence false s ts a out pending last)
    (hb : Reads (op.precedence + 1) bare
      ⟨some (Symbol.binary op).token, (Symbol.binary op).token :: s.stack⟩ us b out' pending' last') :
    Reads p bare s (ts ++ (Symbol.binary op).token :: us) (.binary op a b) (out ++ (pending ++ out'))
      (pending' ++ [(Symbol.binary op).token]) last' where
  run := by
    have hwaiting : ∀ t ∈ pending ++ s.stack, IsWaiting t := fun t ht =>
      (List.mem_append.1 ht).elim (fun ht => .inr (ha.operators t ht)) (hs.waiting t)
    have hadvance := State.advance_binary ⟨some last, pending ++ s.stack⟩ op (fun _ => ha.operand) hwaiting
    have hdrop : s.stack.dropWhile (bindsAtLeast op.precedence) = s.stack := by
      have := List.takeWhile_append_dropWhile (p := bindsAtLeast op.precedence) (l := s.stack)
      rwa [hs.loose op hp, List.nil_append] at this
    rw [List.takeWhile_append_of_pos (ha.tight rfl), List.dropWhile_append_of_pos (ha.tight rfl),
      hs.loose op hp, hdrop, List.append_nil] at hadvance
    simpa using State.run_append_ok ha.run (State.run_cons_ok hadvance hb.run)
  tokens := by simp [Expression.postorder, ← ha.tokens, ← hb.tokens, Operator.token]
  operand := hb.operand
  operators t ht := by
    rcases List.mem_append.1 ht with ht | ht
    · exact hb.operators t ht
    · exact ⟨.binary op, List.mem_singleton.1 ht⟩
  tight hbare t ht := by
    rcases List.mem_append.1 ht with ht | ht
    · exact bindsAtLeast_mono (by omega) (hb.tight hbare t ht)
    · obtain rfl := List.mem_singleton.1 ht
      simpa using hp

end

/-- Reading an expression from any state where it may begin; one that begins with a group does not begin
right after a function, whose argument the group would be. -/
theorem reads_derives {p : Int} {bare : Bool} {ls : List Lexeme} {e : Expression Atom}
    (h : Derives p bare ls e) {s : State} (hs : Ready p s)
    (hf : ∀ t ∈ s.stack.head?, t.type = .function → ls.head? ≠ some (.symbol .openGroup)) :
    ∃ out pending last, Reads p bare s (ls.map Lexeme.token) e out pending last := by
  induction h generalizing s with
  | atom a => exact ⟨_, _, _, reads_atom a⟩
  | group _ ih =>
    have hready := Ready.push (p := 1) (by decide) hs.waiting (.inl rfl) fun _ _ => rfl
    obtain ⟨out, pending, last, h⟩ := ih hready (by simp [Symbol.token])
    rw [List.map_append]
    exact ⟨_, _, _, reads_group h (by simpa using hf)⟩
  | call f _ ih =>
    have hwaiting : ∀ t ∈ (Symbol.function f).token :: s.stack, IsWaiting t := by
      simpa using ⟨.inr ⟨.function f, rfl⟩, hs.waiting⟩
    have hready := Ready.push (p := 1) (by decide) hwaiting (.inl rfl) fun _ _ => rfl
    obtain ⟨out, pending, last, h⟩ := ih hready (by simp [Symbol.token])
    rw [List.map_append]
    exact ⟨_, _, _, reads_call h⟩
  | bareCall f _ hne ih =>
    have hready := Ready.push (p := 1) (by decide) hs.waiting (.inr ⟨.function f, rfl⟩) fun _ _ => rfl
    obtain ⟨out, pending, last, h⟩ := ih hready fun _ _ _ => hne
    exact ⟨_, _, _, reads_bareCall h⟩
  | negate _ ih =>
    have hready := Ready.push (p := primaryLevel) le_rfl hs.waiting (.inr ⟨.negation, rfl⟩) fun op hop =>
      absurd (precedence_lt_primaryLevel op) (by omega)
    obtain ⟨out, pending, last, h⟩ := ih hready (by simp [Operator.token, Token.negation])
    exact ⟨_, _, _, reads_negate hs h⟩
  | @binary p bare ls ms a b op hp _ _ iha ihb =>
    have hlevel := precedence_lt_primaryLevel op
    have hready : Ready op.precedence s :=
      ⟨hlevel.le, hs.operand, hs.waiting, fun op' hop' => hs.loose op' (hp.trans hop')⟩
    obtain ⟨out, pending, last, ha⟩ :=
      iha hready fun t ht hfun h => hf t ht hfun (by simp [List.head?_append, h])
    have hreadyb := Ready.push (p := op.precedence + 1) (by omega) hs.waiting
      (.inr ⟨.binary op, rfl⟩) fun op' hop' => by
        simp only [Operator.token, bindsAtLeast_binary, decide_eq_false_iff_not]
        omega
    obtain ⟨out', pending', last', hb⟩ := ihb hreadyb (by simp [Operator.token, Symbol.token])
    rw [List.map_append, List.map_cons]
    exact ⟨_, _, _, reads_binary hs hp ha hb⟩

/-- Conversion of an expression puts out the tokens of its tree. -/
theorem ofTokens_derives {bare : Bool} {ls : List Lexeme} {e : Expression Atom} (h : Derives 1 bare ls e) :
    ofTokens (ls.map Lexeme.token) = .ok e.postorder := by
  have hready : Ready 1 .start := ⟨by decide, rfl, waiting_start, by simp [State.start]⟩
  obtain ⟨out, pending, last, h⟩ := reads_derives h hready (by simp [State.start])
  rw [ofTokens_of_run h.run, ← h.tokens]
  simp [State.start, finish_eq h.not_leftParen]

end Reckoner
