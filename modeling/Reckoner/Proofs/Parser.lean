import Reckoner.Proofs.Grammar
/-!
# Reading expressions by recursive descent

A parser that follows the grammar: a primary, and then one binary operator after the other with a right
operand of the next tighter level each. It accepts exactly the expressions of the grammar, with their
trees (`parse?_eq_some_iff`), so whatever it accepts is converted to its tree in post-order.
-/

namespace Reckoner

/-- What was read inside a group, once the group is closed. -/
def closed? : Expression Atom × List Lexeme → Option (Expression Atom × List Lexeme)
  | (e, .symbol .closeGroup :: rest) => some (e, rest)
  | _ => none

-- What is left after reading is always shorter; the lengths are compared for the sake of termination only.
mutual

/-- The primary at the start, and what is left after it. -/
def primary? (ls : List Lexeme) : Option (Expression Atom × List Lexeme) :=
  match ls with
  | .literal n :: ls => some (.operand (.literal n), ls)
  | .symbol (.constant c) :: ls => some (.operand (.constant c), ls)
  | .symbol .openGroup :: ls => expression? 1 ls >>= closed?
  | .symbol (.function f) :: .symbol .openGroup :: ls => do
    let (e, rest) ← expression? 1 ls >>= closed?
    return (.call f e, rest)
  | .symbol (.function f) :: ls => do
    let (e, rest) ← expression? 1 ls
    return (.call f e, rest)
  | .symbol (.binary .sub) :: ls => do
    let (e, rest) ← primary? ls
    return (.negate e, rest)
  | _ => none
termination_by (ls.length, 0)

/-- The expression of level `p` at the start. -/
def expression? (p : Int) (ls : List Lexeme) : Option (Expression Atom × List Lexeme) := do
  let (e, rest) ← primary? ls
  if rest.length < ls.length then chain? p e rest else none
termination_by (ls.length, 1)

/-- The operators of level `p` that come after a left operand, with their right operands. -/
def chain? (p : Int) (left : Expression Atom) (ls : List Lexeme) :
    Option (Expression Atom × List Lexeme) :=
  match ls with
  | .symbol (.binary op) :: ls =>
    if p ≤ op.precedence then do
      let (right, rest) ← expression? (op.precedence + 1) ls
      if rest.length < ls.length then chain? p (.binary op left right) rest else none
    else some (left, .symbol (.binary op) :: ls)
  | ls => some (left, ls)
termination_by (ls.length, 0)

end

/-- The tree of a whole text. -/
def parse? (ls : List Lexeme) : Option (Expression Atom) :=
  match expression? 1 ls with
  | some (e, []) => some e
  | _ => none

/-! ## Where an expression ends -/

/-- What comes after an expression of level `p` does not belong to it; after a bare one no operator comes
at all. -/
def Ends (p : Int) (bare : Bool) (rest : List Lexeme) : Prop :=
  ∀ op, rest.head? = some (.symbol (.binary op)) → bare = false ∧ op.precedence < p

theorem Ends.mono {p q : Int} {bare : Bool} {rest : List Lexeme} (h : Ends p bare rest) (hpq : p ≤ q) :
    Ends q bare rest :=
  fun op hop => ⟨(h op hop).1, (h op hop).2.trans_le hpq⟩

/-- Nothing goes on after an expression of the loosest level. -/
theorem Ends.of_loosest {p : Int} {bare bare' : Bool} {rest : List Lexeme} (h : Ends 1 bare rest) :
    Ends p bare' rest :=
  fun op hop => absurd (h op hop).2 (by cases op <;> decide)

theorem chain?_of_ends {p : Int} {bare : Bool} {rest : List Lexeme} (h : Ends p bare rest)
    (e : Expression Atom) : chain? p e rest = some (e, rest) := by
  unfold chain?
  split
  · next op ls =>
    have hlt := (h op rfl).2
    rw [if_neg (by omega)]
  · rfl

theorem ends_closeGroup (p : Int) (bare : Bool) (rest : List Lexeme) :
    Ends p bare (.symbol .closeGroup :: rest) :=
  fun op hop => by simp at hop

/-- A primary that does not end bare may be followed by any operator. -/
theorem ends_primary (rest : List Lexeme) : Ends primaryLevel false rest :=
  fun op _ => ⟨rfl, precedence_lt_primaryLevel op⟩

/-! ## What is read is an expression -/

/-- `ls` begins with an expression of level `p`, as long as can be, before `rest`. -/
def Begins (p : Int) (ls : List Lexeme) (e : Expression Atom) (rest : List Lexeme) : Prop :=
  ∃ bare ms, ls = ms ++ rest ∧ Derives p bare ms e ∧ Ends p bare rest

theorem closed?_eq_some {x : Expression Atom × List Lexeme} {e : Expression Atom} {rest : List Lexeme}
    (h : closed? x = some (e, rest)) : x = (e, .symbol .closeGroup :: rest) := by
  unfold closed? at h
  split at h
  · cases h; rfl
  · cases h

/-- Each of the three reads an expression of its level; the last one continues what is already read. -/
theorem parser_sound :
    (∀ ls e rest, primary? ls = some (e, rest) → Begins primaryLevel ls e rest) ∧
    (∀ p ls, p ≤ primaryLevel → ∀ e rest, expression? p ls = some (e, rest) → Begins p ls e rest) ∧
    (∀ p left ls, ∀ q bare ms, p ≤ q → Derives q bare ms left → Ends (q + 1) bare ls →
      ∀ e rest, chain? p left ls = some (e, rest) → Begins p (ms ++ ls) e rest) := by
  apply primary?.mutual_induct
  case case1 =>
    -- a literal
    intro n ls e rest h
    rw [primary?] at h
    cases h
    exact ⟨false, [.literal n], rfl, .atom (.literal n), ends_primary _⟩
  case case2 =>
    -- a constant
    intro c ls e rest h
    rw [primary?] at h
    cases h
    exact ⟨false, [.symbol (.constant c)], rfl, .atom (.constant c), ends_primary _⟩
  case case3 =>
    -- a group
    intro ls ih e rest h
    rw [primary?, Option.bind_eq_bind, Option.bind_eq_some_iff] at h
    obtain ⟨x, hx, hclosed⟩ := h
    obtain rfl := closed?_eq_some hclosed
    obtain ⟨bare, ms, rfl, hms, -⟩ := ih (by decide) _ _ hx
    exact ⟨false, _, by simp, .group hms, ends_primary _⟩
  case case4 =>
    -- a function before a group
    intro f ls ih e rest h
    simp only [primary?, Option.bind_eq_bind, Option.bind_eq_some_iff] at h
    obtain ⟨_, ⟨x, hx, hclosed⟩, heq⟩ := h
    cases heq
    obtain rfl := closed?_eq_some hclosed
    obtain ⟨bare, ms, rfl, hms, -⟩ := ih (by decide) _ _ hx
    exact ⟨false, _, by simp, .call f hms, ends_primary _⟩
  case case5 =>
    -- a function without a group
    intro f ls hopen ih e rest h
    rw [primary?.eq_5 _ _ hopen, Option.bind_eq_bind, Option.bind_eq_some_iff] at h
    obtain ⟨x, hx, heq⟩ := h
    cases heq
    obtain ⟨bare, ms, rfl, hms, hends⟩ := ih (by decide) _ _ hx
    refine ⟨true, _, rfl, .bareCall f hms fun hms => ?_, hends.of_loosest⟩
    obtain ⟨ms, rfl⟩ := List.head?_eq_some_iff.1 hms
    exact hopen _ rfl
  case case6 =>
    -- a minus sign
    intro ls ih e rest h
    simp only [primary?, Option.bind_eq_bind, Option.bind_eq_some_iff] at h
    obtain ⟨x, hx, heq⟩ := h
    cases heq
    obtain ⟨bare, ms, rfl, hms, hends⟩ := ih _ _ hx
    exact ⟨bare, _, rfl, .negate hms, hends⟩
  case case7 =>
    -- nothing that begins a primary
    intro ls h₁ h₂ h₃ h₄ h₅ h₆ e rest h
    rw [primary?.eq_7 ls h₁ h₂ h₃ h₄ h₅ h₆] at h
    cases h
  case case8 =>
    -- a primary with the operators after it
    intro p ls ih ihchain hp e rest h
    simp only [expression?, Option.bind_eq_bind, Option.bind_eq_some_iff] at h
    obtain ⟨⟨e', rest'⟩, hprimary, h⟩ := h
    split at h
    · next hlen =>
      obtain ⟨bare, ms, rfl, hms, hends⟩ := ih _ _ hprimary
      exact ihchain e' rest' hlen _ _ _ hp hms (hends.mono (by omega)) _ _ h
    · cases h
  case case9 =>
    -- an operator of the level
    intro p left op ls hp ih ihchain q bare ms hpq hleft hends e rest h
    simp only [chain?, if_pos hp, Option.bind_eq_bind, Option.bind_eq_some_iff] at h
    obtain ⟨⟨right, rest'⟩, hright, h⟩ := h
    split at h
    · next hlen =>
      have hlevel := precedence_lt_primaryLevel op
      obtain ⟨rfl, hop⟩ := hends op rfl
      obtain ⟨bare', ms', rfl, hms', hends'⟩ := ih (by omega) _ _ hright
      have hbinary := Derives.binary op le_rfl (hleft.mono (by omega)) hms'
      simpa using ihchain right rest' hlen _ _ _ hp hbinary hends' _ _ h
    · cases h
  case case10 =>
    -- a looser operator
    intro p left op ls hp q bare ms hpq hleft hends e rest h
    rw [chain?, if_neg hp] at h
    cases h
    refine ⟨bare, ms, rfl, hleft.mono hpq, fun op' hop' => ⟨(hends op' hop').1, ?_⟩⟩
    simp only [List.head?_cons, Option.some.injEq, Lexeme.symbol.injEq, Symbol.binary.injEq] at hop'
    subst hop'
    omega
  case case11 =>
    -- no operator
    intro p left ls hls q bare ms hpq hleft hends e rest h
    rw [chain?.eq_2 p left ls hls] at h
    cases h
    refine ⟨bare, ms, rfl, hleft.mono hpq, fun op hop => ?_⟩
    obtain ⟨ls', hls'⟩ := List.head?_eq_some_iff.1 hop
    exact absurd hls' (hls op ls')

/-! ## Every expression is read -/

theorem Derives.ne_nil {p : Int} {bare : Bool} {ls : List Lexeme} {e : Expression Atom}
    (h : Derives p bare ls e) : ls ≠ [] := by
  cases h <;> simp

theorem expression?_of_primary {p : Int} {ls : List Lexeme} {e : Expression Atom} {rest : List Lexeme}
    (h : primary? ls = some (e, rest)) (hlen : rest.length < ls.length) :
    expression? p ls = chain? p e rest := by
  simp [expression?, h, hlen]

/-- No operator is as tight as a primary. -/
theorem primary?_of_expression {ls : List Lexeme} {e : Expression Atom} {rest : List Lexeme}
    (h : expression? primaryLevel ls = some (e, rest)) : primary? ls = some (e, rest) := by
  simp only [expression?, Option.bind_eq_bind, Option.bind_eq_some_iff] at h
  obtain ⟨⟨e', rest'⟩, hprimary, h⟩ := h
  split at h
  · rw [chain?_of_ends (ends_primary rest')] at h
    cases h
    exact hprimary
  · cases h

/-- After `ms` its level, and every looser one, goes on with what comes next. -/
def GoesOn (p : Int) (bare : Bool) (ms : List Lexeme) (e : Expression Atom) : Prop :=
  ∀ q ≤ p, ∀ rest, Ends (p + 1) bare rest → expression? q (ms ++ rest) = chain? q e rest

theorem GoesOn.read {p : Int} {bare : Bool} {ms rest : List Lexeme} {e : Expression Atom}
    (h : GoesOn p bare ms e) (hends : Ends p bare rest) : expression? p (ms ++ rest) = some (e, rest) := by
  rw [h p le_rfl rest (hends.mono (by omega)), chain?_of_ends hends]

theorem Derives.goesOn {p : Int} {bare : Bool} {ms : List Lexeme} {e : Expression Atom}
    (h : Derives p bare ms e) : GoesOn p bare ms e := by
  induction h with
  | atom a =>
    intro q hq rest hends
    refine expression?_of_primary ?_ (by simp)
    cases a <;> simp [Atom.lexeme, primary?]
  | group _ ih =>
    intro q hq rest hends
    refine expression?_of_primary ?_ (by simp only [List.length_append, List.length_cons]; omega)
    simp [primary?, ih.read (ends_closeGroup _ _ rest), closed?]
  | call f _ ih =>
    intro q hq rest hends
    refine expression?_of_primary ?_ (by simp only [List.length_append, List.length_cons]; omega)
    simp [primary?, ih.read (ends_closeGroup _ _ rest), closed?]
  | @bareCall p bare ms e f hms hne ih =>
    intro q hq rest hends
    have hrest : Ends 1 bare rest := fun op hop => absurd (hends op hop).1 (by simp)
    have hopen : ∀ ls, ms ++ rest = .symbol .openGroup :: ls → False := by
      intro ls hls
      obtain ⟨m, ms, rfl⟩ := List.exists_cons_of_ne_nil hms.ne_nil
      rw [List.cons_append] at hls
      cases hls
      exact hne rfl
    refine expression?_of_primary ?_ (by simp only [List.length_append, List.length_cons]; omega)
    rw [List.cons_append, primary?.eq_5 _ _ hopen, ih.read hrest]
    rfl
  | @negate p bare ms e _ ih =>
    intro q hq rest hends
    have hrest : Ends primaryLevel bare rest :=
      fun op hop => ⟨(hends op hop).1, precedence_lt_primaryLevel op⟩
    refine expression?_of_primary ?_ (by simp only [List.length_append, List.length_cons]; omega)
    simp [primary?, primary?_of_expression (ih.read hrest)]
  | @binary p bare ms ms' a b op hp _ hb iha ihb =>
    intro q hq rest hends
    have hop : Ends (op.precedence + 1) false (.symbol (.binary op) :: (ms' ++ rest)) := by
      intro op' hop'
      cases hop'
      exact ⟨rfl, by omega⟩
    have hlen : 0 < ms'.length := List.length_pos_iff.2 hb.ne_nil
    rw [List.append_assoc, List.cons_append, iha q (hq.trans hp) _ hop, chain?, if_pos (hq.trans hp),
      ihb.read (hends.mono (by omega))]
    simp [hlen]

/-- The parser accepts the expressions of the grammar and nothing else. -/
theorem parse?_eq_some_iff {ls : List Lexeme} {e : Expression Atom} :
    parse? ls = some e ↔ ∃ bare, Derives 1 bare ls e := by
  unfold parse?
  constructor
  · intro h
    split at h
    · next e' hread =>
      cases h
      obtain ⟨bare, ms, rfl, hms, -⟩ := parser_sound.2.1 1 ls (by decide) _ _ hread
      exact ⟨bare, by simpa using hms⟩
    · cases h
  · rintro ⟨bare, h⟩
    have hread : expression? 1 (ls ++ []) = some (e, []) := h.goesOn.read fun op hop => by cases hop
    rw [List.append_nil] at hread
    rw [hread]

/-- Conversion of whatever the parser accepts succeeds and puts out its tree in post-order. -/
theorem ofTokens_of_parse {ls : List Lexeme} {e : Expression Atom} (h : parse? ls = some e) :
    Postfix.ofTokens (ls.map Lexeme.token) = .ok e.postorder := by
  obtain ⟨bare, hderives⟩ := parse?_eq_some_iff.1 h
  exact ofTokens_derives hderives

/-- In `-π^sin e*(i-π)` the minus sign goes to the first operand and the sine takes all the rest. -/
theorem ofTokens_bare_sine :
    let ls : List Lexeme := [.symbol (.binary .sub), .symbol (.constant .pi), .symbol (.binary .pow),
      .symbol (.function .sin), .symbol (.constant .e), .symbol (.binary .mul), .symbol .openGroup,
      .symbol (.constant .i), .symbol (.binary .sub), .symbol (.constant .pi), .symbol .closeGroup]
    let atom (c : Constant) : Expression Atom := .operand (.constant c)
    let e : Expression Atom := .binary .pow (.negate (atom .pi))
      (.call .sin (.binary .mul (atom .e) (.binary .sub (atom .i) (atom .pi))))
    parse? ls = some e ∧ Postfix.ofTokens (ls.map Lexeme.token) = .ok e.postorder := by
  intro ls atom e
  have h : parse? ls = some e := by
    simp [ls, e, atom, parse?, expression?, primary?, chain?, closed?, BinaryOp.precedence]
  exact ⟨h, ofTokens_of_parse h⟩

end Reckoner
