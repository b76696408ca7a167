import Mathlib.Data.List.Basic
import Reckoner.Proofs.Conservation
/-!
# Groups as operands

To all that stands around it a group in parentheses is one operand. Inside of it a conversion goes as it
does by itself: it does not come to the open group, let alone to what waits below (`run_above`). At its end
the closing parenthesis puts out what is still waiting and, where a function stands before the group, that
function (`readsOperand_group`, `readsOperand_call`). So a number, a group and a call leave the same state
behind, and what comes after goes the same way (`ofTokens_around`).
-/

namespace Reckoner.Postfix

/-! ## What the token before has a say in -/

section
variable {p q : Option Token}

theorem resolve_congr (h : expectsOperand p = expectsOperand q) (t : Token) : resolve p t = resolve q t := by
  unfold resolve
  rw [h]

/-- All that counts of the token before is whether an operand is due. -/
theorem convert_congr (h : expectsOperand p = expectsOperand q) (stack ts : List Token) :
    convert p stack ts = convert q stack ts := by
  cases ts with
  | nil => rfl
  | cons t ts => rw [convert, convert, resolve_congr h]

end

/-! ## Above an open group -/

section
variable {stack out stack' : List Token} {t : Token}

/-- A scanned token makes its move. -/
theorem Moves.step (h : Moves stack t out stack') (hs : ∀ t ∈ stack, IsWaiting t) :
    step stack t = .ok (out, stack') := by
  cases h with
  | number h => exact step_number h stack
  | constant | opens => rfl
  | closes hstack htop hbelow => rw [hstack, step_closeGroup htop hbelow]
  | calls hstack htop => rw [hstack, step_closeCall htop]
  | waits op h => exact step_unary op h stack
  | takes op => exact step_binary op hs

theorem takeWhile_above (stack : List Token) (p : Int) (below : List Token) :
    (stack ++ Symbol.openGroup.token :: below).takeWhile (bindsAtLeast p) = stack.takeWhile (bindsAtLeast p) ∧
      (stack ++ Symbol.openGroup.token :: below).dropWhile (bindsAtLeast p) =
        stack.dropWhile (bindsAtLeast p) ++ Symbol.openGroup.token :: below := by
  have hopen : bindsAtLeast p Symbol.openGroup.token = false := rfl
  induction stack with
  | nil => simp [hopen]
  | cons t stack ih =>
    by_cases ht : bindsAtLeast p t = true
    · simp [ht, ih]
    · simp [ht]

/-- Above an open group each token does what it does by itself. -/
theorem Moves.above (h : Moves stack t out stack') (below : List Token) :
    Moves (stack ++ Symbol.openGroup.token :: below) t out (stack' ++ Symbol.openGroup.token :: below) := by
  cases h with
  | number h => exact .number h
  | constant c => exact .constant c
  | opens => exact .opens
  | closes hstack htop hbelow =>
    refine .closes (by rw [hstack]; simp) htop fun u hu => ?_
    cases stack' with
    | nil =>
      obtain rfl := Option.some.inj hu
      simp [Symbol.token]
    | cons v rest => exact hbelow u hu
  | calls hstack htop => exact .calls (by rw [hstack]; simp) htop
  | waits op h => exact .waits op h
  | takes op =>
    obtain ⟨htake, hdrop⟩ := takeWhile_above stack op.precedence below
    have htakes : Moves (stack ++ Symbol.openGroup.token :: below) _ _ _ := .takes op
    rwa [htake, hdrop] at htakes

end

/-- A run goes the same way above an open group, as long as it finds what it needs by itself. -/
theorem run_above {ls : List Lexeme} {s s' : State} {out : List Token} (hs : ∀ t ∈ s.stack, IsWaiting t)
    (h : s.run (ls.map Lexeme.token) = .ok (out, s')) {below : List Token} (hbelow : ∀ t ∈ below, IsWaiting t)
    {p : Option Token} (hp : expectsOperand p = expectsOperand s.previous) :
    ∃ p', State.run ⟨p, s.stack ++ Symbol.openGroup.token :: below⟩ (ls.map Lexeme.token) =
      .ok (out, ⟨p', s'.stack ++ Symbol.openGroup.token :: below⟩) := by
  induction ls generalizing s out p with
  | nil => cases h; exact ⟨p, rfl⟩
  | cons l ls ih =>
    obtain ⟨out₁, stack₁, out₂, hmoves, hs₁, hrun, rfl⟩ := State.run_cons_eq_ok hs h
    obtain ⟨p', hrest⟩ := ih hs₁ hrun rfl
    have hwaiting : ∀ t ∈ s.stack ++ Symbol.openGroup.token :: below, IsWaiting t := by
      simpa [or_imp, forall_and] using ⟨hs, .inl rfl, hbelow⟩
    have hadvance := State.advance_of_resolve ⟨p, _⟩ (resolve_congr hp l.token)
      ((hmoves.above below).step hwaiting)
    exact ⟨p', State.run_cons_ok hadvance hrest⟩

/-! ## Groups -/

/-- What is read from a state as one operand: it puts out `out`, and all that waits keeps waiting. -/
def ReadsOperand (s : State) (ts out : List Token) : Prop :=
  ∃ last, expectsOperand (some last) = false ∧ s.run ts = .ok (out, ⟨some last, s.stack⟩)

section
variable {s : State}

theorem readsOperand_number {x : Token} (hx : x.type = .number) (hname : x.name ≠ "-") :
    ReadsOperand s [x] [x] := by
  have hadvance := s.advance_of_resolve (resolve_of_name_ne hname _) (step_number hx s.stack)
  exact ⟨x, by simp [expectsOperand, hx], State.run_cons_ok hadvance rfl⟩

variable {ts : List Lexeme} {inner : List Token}

/-- The inside of a group puts out, and leaves above the group, what it converts to by itself. -/
theorem run_inside (h : ofTokens (ts.map Lexeme.token) = .ok inner) {below : List Token}
    (hbelow : ∀ t ∈ below, IsWaiting t) :
    ∃ out top p, State.run ⟨some Symbol.openGroup.token, Symbol.openGroup.token :: below⟩
        (ts.map Lexeme.token) = .ok (out, ⟨p, top ++ Symbol.openGroup.token :: below⟩) ∧
      (∀ t ∈ top, t.type ≠ .leftParen) ∧ inner = out ++ top := by
  obtain ⟨out, s', hrun, hopen, rfl⟩ := convert_eq_ok (s := .start) h
  obtain ⟨p, habove⟩ := run_above waiting_start hrun hbelow
    (p := some Symbol.openGroup.token) rfl
  exact ⟨out, s'.stack, p, habove, hopen, rfl⟩

/-- A group is read as an operand, unless it is the argument of a function. -/
theorem readsOperand_group (h : ofTokens (ts.map Lexeme.token) = .ok inner)
    (hs : ∀ t ∈ s.stack, IsWaiting t) (hhead : ∀ t ∈ s.stack.head?, t.type ≠ .function) :
    ReadsOperand s (Symbol.openGroup.token :: ts.map Lexeme.token ++ [Symbol.closeGroup.token]) inner := by
  obtain ⟨out, top, p, hrun, htop, rfl⟩ := run_inside h hs
  exact ⟨Symbol.closeGroup.token, rfl, State.run_concat_ok (State.run_cons_ok s.advance_openGroup hrun)
    (State.advance_closeGroup _ rfl htop hhead)⟩

/-- A function is read with its group as an operand. -/
theorem readsOperand_call (f : Func) (h : ofTokens (ts.map Lexeme.token) = .ok inner)
    (hs : ∀ t ∈ s.stack, IsWaiting t) :
    ReadsOperand s ((Symbol.function f).token :: Symbol.openGroup.token :: ts.map Lexeme.token ++
      [Symbol.closeGroup.token]) (inner ++ [(Symbol.function f).token]) := by
  have hbelow : ∀ t ∈ (Symbol.function f).token :: s.stack, IsWaiting t := by
    simpa using ⟨.inr ⟨.function f, rfl⟩, hs⟩
  obtain ⟨out, top, p, hrun, htop, rfl⟩ := run_inside h hbelow
  have hcall := State.run_concat_ok
    (State.run_cons_ok (s.advance_function f) (State.run_cons_ok (State.advance_openGroup _) hrun))
    (State.advance_closeCall _ rfl htop)
  exact ⟨Symbol.closeGroup.token, rfl, by simpa using hcall⟩

end

/-! ## Around an operand -/

/-- What a sequence puts out before and after an operand that stands between its two parts. -/
def around (pre suf : List Token) : Except Fault (List Token × List Token) := do
  let (before, s) ← State.start.run pre
  let after ← convert (some Symbol.closeGroup.token) s.stack suf
  return (before, after)

/-- What is read as an operand does not change what is put out around it. -/
theorem ofTokens_around (pre suf : List Token) {ts out : List Token}
    (h : ∀ before s, State.start.run pre = .ok (before, s) → ReadsOperand s ts out) :
    ofTokens (pre ++ ts ++ suf) = (around pre suf).map fun (before, after) => before ++ out ++ after := by
  unfold around
  cases hpre : State.start.run pre with
  | error e =>
    have hconvert : ofTokens (pre ++ ts ++ suf) = _ :=
      List.append_assoc pre ts suf ▸ convert_append_error hpre (ts ++ suf)
    rw [hconvert]
    rfl
  | ok r =>
    obtain ⟨before, s⟩ := r
    obtain ⟨last, hlast, hrun⟩ := h before s hpre
    have hread : ofTokens (pre ++ ts ++ suf) = _ := convert_append (State.run_append_ok hpre hrun) suf
    have hsuf : convert (some last) s.stack suf = convert (some Symbol.closeGroup.token) s.stack suf :=
      convert_congr hlast s.stack suf
    rw [hread, hsuf]
    cases hafter : convert (some Symbol.closeGroup.token) s.stack suf with
    | error e => simp [hafter, Except.map]
    | ok after => simp [hafter, Except.map, pure, Except.pure]

/-! ## What stands around an operand -/

section
variable {pre suf : List Lexeme}

/-- An opening parenthesis or an operator waits right after it is read. -/
theorem Moves.head_eq {stack out stack' : List Token} {t : Token} (h : Moves stack t out stack')
    (ht : t.type = .leftParen ∨ t.type = .operator) : stack'.head? = some t := by
  cases h with
  | number h => simp [h] at ht
  | constant | closes | calls => simp [Symbol.token] at ht
  | opens | waits | takes => rfl

theorem type_resolve_binary (previous : Option Token) (op : BinaryOp) :
    (resolve previous (Symbol.binary op).token).type = .operator := by
  unfold resolve
  split <;> rfl

/-- No function waits for the operand after an opening parenthesis, after an operator or at the start. -/
theorem head_of_run {before : List Token} {s : State}
    (h : State.start.run (pre.map Lexeme.token) = .ok (before, s))
    (hlast : ∀ l ∈ pre.getLast?, l = .symbol .openGroup ∨ ∃ op, l = .symbol (.binary op)) :
    ∀ t ∈ s.stack.head?, t.type ≠ .function := by
  rcases List.eq_nil_or_concat pre with rfl | ⟨us, l, rfl⟩
  · cases h
    simp [State.start]
  · rw [List.concat_eq_append, List.map_append] at h
    obtain ⟨out₁, s₁, out₂, hus, hl, -⟩ := State.run_append_eq_ok h
    have hs₁ := run_waiting waiting_start hus
    obtain ⟨out, stack, out', hmoves, -, hend, -⟩ := State.run_cons_eq_ok hs₁ hl
    cases hend
    have htype : (resolve s₁.previous l.token).type = .leftParen ∨
        (resolve s₁.previous l.token).type = .operator := by
      rcases hlast l (by simp) with rfl | ⟨op, rfl⟩
      · left
        rw [Lexeme.token_symbol, resolve_of_name_ne (by decide)]
        rfl
      · exact .inr (type_resolve_binary s₁.previous op)
    rw [hmoves.head_eq htype]
    rintro t ⟨⟩ hfun
    simp [hfun] at htype

/-- Each number of an infix sequence is what one of its lexemes stands for. -/
theorem number_of_contents {ls : List Lexeme} {previous : Option Token} {t : Token}
    (ht : t ∈ contents previous (ls.map Lexeme.token)) (htype : t.type = .number) :
    ∃ l ∈ ls, t ∈ l.token.converted := by
  induction ls generalizing previous with
  | nil => cases ht
  | cons l ls ih =>
    rcases List.mem_append.1 ht with ht | ht
    · refine ⟨l, List.mem_cons_self, ?_⟩
      rw [resolve_lexeme] at ht
      split at ht
      · rw [converted_operator, List.mem_singleton] at ht
        exact absurd (ht ▸ htype) Operator.negation.token_ne_number
      · exact ht
    · obtain ⟨l', hl', ht'⟩ := ih ht
      exact ⟨l', List.mem_cons_of_mem l hl', ht'⟩

/-- The numbers that are put out around an operand are those that stand around it. -/
theorem number_of_around {before after : List Token}
    (h : around (pre.map Lexeme.token) (suf.map Lexeme.token) = .ok (before, after)) {t : Token}
    (ht : t ∈ before ++ after) (htype : t.type = .number) : ∃ l ∈ pre ++ suf, t ∈ l.token.converted := by
  unfold around at h
  cases hpre : State.start.run (pre.map Lexeme.token) with
  | error e => rw [hpre] at h; cases h
  | ok r =>
    obtain ⟨before', s⟩ := r
    simp only [hpre, ok_bind] at h
    cases hsuf : convert (some Symbol.closeGroup.token) s.stack (suf.map Lexeme.token) with
    | error e => rw [hsuf] at h; cases h
    | ok after' =>
      rw [hsuf] at h
      cases h
      have hs := run_waiting waiting_start hpre
      rcases List.mem_append.1 ht with ht | ht
      · have hmem := (run_perm waiting_start hpre).subset (List.mem_append_left _ ht)
        obtain ⟨l, hl, hmem⟩ := number_of_contents (by simpa [State.start, waitingOperators] using hmem) htype
        exact ⟨l, List.mem_append_left _ hl, hmem⟩
      · have hmem := (convert_perm (s := ⟨some Symbol.closeGroup.token, s.stack⟩) hs hsuf).subset ht
        rcases List.mem_append.1 hmem with hmem | hmem
        · obtain ⟨l, hl, hmem⟩ := number_of_contents hmem htype
          exact ⟨l, List.mem_append_right _ hl, hmem⟩
        · exact absurd htype (not_number_of_waiting hs hmem)

end

/-- A group in parentheses is one operand, whatever stands around it and whether or not that makes sense. A
number, a call and, where no function takes it as its argument, a group leave the same outcome around
them: either all of them fail with the same error, or they are put out between the same tokens, whose numbers
all come from around them. -/
theorem group_is_operand {ts : List Lexeme} {inner : List Token}
    (h : ofTokens (ts.map Lexeme.token) = .ok inner) (pre suf : List Lexeme) :
    ∃ outcome : Except Fault (List Token × List Token),
      (∀ x : Token, x.type = .number → x.name ≠ "-" →
        ofTokens (pre.map Lexeme.token ++ x :: suf.map Lexeme.token) =
          outcome.map fun (before, after) => before ++ x :: after) ∧
      (∀ f : Func,
        ofTokens ((pre ++ .symbol (.function f) :: .symbol .openGroup :: ts ++
            .symbol .closeGroup :: suf).map Lexeme.token) =
          outcome.map fun (before, after) => before ++ (inner ++ [(Symbol.function f).token]) ++ after) ∧
      ((∀ l ∈ pre.getLast?, l = .symbol .openGroup ∨ ∃ op, l = .symbol (.binary op)) →
        ofTokens ((pre ++ .symbol .openGroup :: ts ++ .symbol .closeGroup :: suf).map Lexeme.token) =
          outcome.map fun (before, after) => before ++ inner ++ after) ∧
      ∀ before after, outcome = .ok (before, after) → ∀ t ∈ before ++ after, t.type = .number →
        ∃ l ∈ pre ++ suf, t ∈ l.token.converted := by
  refine ⟨around (pre.map Lexeme.token) (suf.map Lexeme.token), fun x hx hname => ?_, fun f => ?_,
    fun hlast => ?_, fun before after hround t ht htype => number_of_around hround ht htype⟩
  · have hnumber := ofTokens_around (pre.map Lexeme.token) (suf.map Lexeme.token) fun _ _ _ =>
      readsOperand_number hx hname
    simpa using hnumber
  · have hcall := ofTokens_around (pre.map Lexeme.token) (suf.map Lexeme.token) fun _ _ hpre =>
      readsOperand_call f h (run_waiting waiting_start hpre)
    simpa using hcall
  · have hgroup := ofTokens_around (pre.map Lexeme.token) (suf.map Lexeme.token) fun _ _ hpre =>
      readsOperand_group h (run_waiting waiting_start hpre) (head_of_run hpre hlast)
    simpa using hgroup

/-- In `π*·^π` a number, a sine of `e-i` and the group `(e-i)` come out at one place, before the second `π`. -/
theorem group_is_operand_of_difference :
    let pre : List Lexeme := [.symbol (.constant .pi), .symbol (.binary .mul)]
    let ts : List Lexeme := [.symbol (.constant .e), .symbol (.binary .sub), .symbol (.constant .i)]
    let suf : List Lexeme := [.symbol (.binary .pow), .symbol (.constant .pi)]
    let number (c : Constant) : Token := Atom.token (.constant c)
    let inner := [number .e, number .i, (Symbol.binary .sub).token]
    let before := [number .pi]
    let after := [number .pi, (Symbol.binary .pow).token, (Symbol.binary .mul).token]
    ofTokens (ts.map Lexeme.token) = .ok inner ∧
    ofTokens (pre.map Lexeme.token ++ number .e :: suf.map Lexeme.token) = .ok (before ++ number .e :: after) ∧
    ofTokens ((pre ++ .symbol (.function .sin) :: .symbol .openGroup :: ts ++
        .symbol .closeGroup :: suf).map Lexeme.token) =
      .ok (before ++ (inner ++ [(Symbol.function .sin).token]) ++ after) ∧
    ofTokens ((pre ++ .symbol .openGroup :: ts ++ .symbol .closeGroup :: suf).map Lexeme.token) =
      .ok (before ++ inner ++ after) ∧
    ∀ t ∈ before ++ after, t.type = .number → ∃ l ∈ pre ++ suf, t ∈ l.token.converted := by
  intro pre ts suf number inner before after
  have h : ofTokens (ts.map Lexeme.token) = .ok inner := rfl
  obtain ⟨outcome, hnumber, hcall, hgroup, hround⟩ := group_is_operand h pre suf
  have hlast : ∀ l ∈ pre.getLast?, l = .symbol .openGroup ∨ ∃ op, l = .symbol (.binary op) := by
    simp [pre]
  have hnumber := hnumber (number .e) rfl (by decide)
  have houtcome : outcome = .ok (before, after) := by
    have hplace : outcome.map (fun (before, after) => before ++ number .e :: after) =
        .ok (before ++ number .e :: after) := hnumber.symm.trans rfl
    cases outcome with
    | error f => cases hplace
    | ok parts =>
      -- neither part of the outcome has the operand itself, so it tells them apart
      obtain ⟨hbefore, -, hafter⟩ := (List.append_cons_inj_of_notMem (by decide) (by decide)).1
        (Except.ok.inj hplace).symm
      rw [hbefore, hafter]
  subst houtcome
  exact ⟨h, hnumber, hcall .sin, hgroup hlast, hround before after rfl⟩

end Reckoner.Postfix
