import Reckoner.Proofs.Grammar
/-!
# Conversion loses and adds nothing

Whatever the order of the tokens, conversion puts out each of them once but the parentheses, a constant as
its number and a minus sign as it counts at its place (`contents`). In between, what is not put out waits on
the stack: a token is put out at once, or it waits on top of what it does not put out (`Moves.split`).

So every token keeps its place in the text while it waits (`Moves.placed`, `run_placed`), and operators come out
late only, behind the numbers that are written before them.
-/

namespace Reckoner

/-- What a token stands for in postfix order. -/
def Token.converted (t : Token) : List Token :=
  match t.type with
  | .number | .operator | .function => [t]
  | .constant => [.number (t.value.getD .nan) t.name]
  | _ => []

namespace Postfix

/-- What an infix sequence puts out, in the order in which it is written. -/
def contents (previous : Option Token) : List Token → List Token
  | [] => []
  | t :: ts => (resolve previous t).converted ++ contents (some (resolve previous t)) ts

/-- The operators and functions on a stack. -/
def waitingOperators (stack : List Token) : List Token := stack.filter (·.type ≠ .leftParen)

section
variable {stack : List Token}

theorem waitingOperators_eq (h : ∀ t ∈ stack, t.type ≠ .leftParen) : waitingOperators stack = stack :=
  List.filter_eq_self.2 (by simpa using h)

@[simp] theorem waitingOperators_append (top below : List Token) :
    waitingOperators (top ++ below) = waitingOperators top ++ waitingOperators below :=
  List.filter_append ..

@[simp] theorem waitingOperators_openGroup :
    waitingOperators (Symbol.openGroup.token :: stack) = waitingOperators stack :=
  List.filter_cons_of_neg (by simp [Symbol.token])

@[simp] theorem waitingOperators_operator (op : Operator) :
    waitingOperators (op.token :: stack) = op.token :: waitingOperators stack :=
  List.filter_cons_of_pos (by rcases op.token_type with h | h <;> simp [h])

@[simp] theorem converted_operator (op : Operator) : op.token.converted = [op.token] := by
  rcases op.token_type with h | h <;> simp [Token.converted, h]

theorem not_number_of_waiting (hs : ∀ t ∈ stack, IsWaiting t) {t : Token} (ht : t ∈ waitingOperators stack) :
    t.type ≠ .number := by
  obtain ⟨ht, hopen⟩ := List.mem_filter.1 ht
  rcases hs t ht with rfl | ⟨op, rfl⟩
  · simp [Symbol.token] at hopen
  · rcases op.token_type with h | h <;> simp [h]

/-- A token is put out at once, or it waits on top of what it does not put out. -/
theorem Moves.split {out stack' : List Token} {t : Token} (h : Moves stack t out stack') :
    (out = t.converted ∧ waitingOperators stack' = waitingOperators stack) ∨
      ∃ rest, waitingOperators stack = out ++ rest ∧ waitingOperators stack' = t.converted ++ rest := by
  cases h with
  | number h => exact .inl ⟨by simp [Token.converted, h], rfl⟩
  | constant c => exact .inl ⟨rfl, rfl⟩
  | opens => exact .inr ⟨waitingOperators stack, rfl, waitingOperators_openGroup⟩
  | closes hstack htop =>
    refine .inr ⟨waitingOperators stack', ?_, rfl⟩
    rw [hstack, waitingOperators_append, waitingOperators_eq htop, waitingOperators_openGroup]
  | @calls f top below hstack htop =>
    have hf : waitingOperators ((Symbol.function f).token :: stack') = _ :=
      waitingOperators_operator (.function f)
    refine .inr ⟨waitingOperators stack', ?_, rfl⟩
    rw [hstack, waitingOperators_append, waitingOperators_eq htop, waitingOperators_openGroup, hf,
      List.append_assoc]
    rfl
  | waits op h =>
    refine .inr ⟨waitingOperators stack, rfl, ?_⟩
    rw [waitingOperators_operator, converted_operator]
    rfl
  | takes op =>
    have htop : ∀ t ∈ stack.takeWhile (bindsAtLeast op.precedence), t.type ≠ .leftParen := fun t ht => by
      simp [type_of_bindsAtLeast (List.mem_takeWhile_imp ht)]
    refine .inr ⟨waitingOperators (stack.dropWhile (bindsAtLeast op.precedence)), ?_, ?_⟩
    · calc waitingOperators stack
        _ = waitingOperators (stack.takeWhile (bindsAtLeast op.precedence) ++
            stack.dropWhile (bindsAtLeast op.precedence)) := by
          rw [List.takeWhile_append_dropWhile]
        _ = _ := by
          rw [waitingOperators_append, waitingOperators_eq htop]
    · rw [waitingOperators_operator, converted_operator]
      rfl

/-- What a token stands for is put out at once or waits, with all that waited before. -/
theorem Moves.perm {out stack' : List Token} {t : Token} (h : Moves stack t out stack') :
    (out ++ waitingOperators stack').Perm (t.converted ++ waitingOperators stack) := by
  rcases h.split with ⟨rfl, hstack⟩ | ⟨rest, hstack, hstack'⟩
  · rw [hstack]
  · rw [hstack, hstack']
    exact List.perm_append_comm_assoc ..

/-! ## Places -/

/-- A token with the place where it is written. -/
abbrev Placed := Token × Nat

/-- Nothing comes out before a number but what is written before it. -/
def InOrder (x y : Placed) : Prop := y.1.type = .number → x.2 < y.2

theorem pairwise_zipIdx (ts : List Token) (n : Nat) : (ts.zipIdx n).Pairwise InOrder := by
  induction ts generalizing n with
  | nil => exact .nil
  | cons t ts ih =>
    rw [List.zipIdx_cons, List.pairwise_cons]
    refine ⟨fun y hy _ => ?_, ih (n + 1)⟩
    exact (List.mem_zipIdx (x := y.1) (i := y.2) hy).1

theorem pairwise_of_not_number {xs : List Placed} (h : ∀ x ∈ xs, x.1.type ≠ .number) : xs.Pairwise InOrder :=
  List.pairwise_of_forall_mem_list fun _ _ y hy hnumber => absurd hnumber (h y hy)

/-- What waits keeps its places while a token moves. -/
theorem Moves.placed {out stack' : List Token} {t : Token} (h : Moves stack t out stack')
    (hs : ∀ t ∈ stack, IsWaiting t) {waiting : List Placed} (hw : waiting.map Prod.fst = waitingOperators stack)
    (n : Nat) :
    ∃ placed waiting' : List Placed, placed.map Prod.fst = out ∧
      waiting'.map Prod.fst = waitingOperators stack' ∧
      (placed ++ waiting').Perm (t.converted.zipIdx n ++ waiting) ∧ placed.Pairwise InOrder := by
  rcases h.split with ⟨rfl, hstack⟩ | ⟨rest, hstack, hstack'⟩
  · exact ⟨t.converted.zipIdx n, waiting, List.zipIdx_map_fst .., hw.trans hstack.symm, .refl _,
      pairwise_zipIdx ..⟩
  · obtain ⟨placed, below, rfl, hplaced, hbelow⟩ := List.map_eq_append_iff.1 (hw.trans hstack)
    refine ⟨placed, t.converted.zipIdx n ++ below, hplaced, ?_, List.perm_append_comm_assoc ..,
      pairwise_of_not_number fun x hx => ?_⟩
    · rw [List.map_append, List.zipIdx_map_fst, hbelow, hstack']
    · have hmem : x.1 ∈ waitingOperators stack := by
        rw [← hw]
        exact List.mem_map_of_mem (List.mem_append_left _ hx)
      exact not_number_of_waiting hs hmem

/-- Along a run every token keeps its place, those at the start of the stack included, and a number comes out
after nothing that is written behind it. -/
theorem run_placed {ls : List Lexeme} {s s' : State} (hs : ∀ t ∈ s.stack, IsWaiting t) {out : List Token}
    (h : s.run (ls.map Lexeme.token) = .ok (out, s')) {waiting : List Placed}
    (hw : waiting.map Prod.fst = waitingOperators s.stack) {n : Nat} (hn : ∀ x ∈ waiting, x.2 < n) :
    ∃ placed waiting' : List Placed, placed.map Prod.fst = out ∧
      waiting'.map Prod.fst = waitingOperators s'.stack ∧
      (placed ++ waiting').Perm ((contents s.previous (ls.map Lexeme.token)).zipIdx n ++ waiting) ∧
      placed.Pairwise InOrder := by
  induction ls generalizing s out waiting n with
  | nil =>
    cases h
    exact ⟨[], waiting, rfl, hw, .refl _, .nil⟩
  | cons l ls ih =>
    obtain ⟨out₁, stack₁, out₂, hmoves, hs₁, hrun, rfl⟩ := State.run_cons_eq_ok hs h
    obtain ⟨placed₁, waiting₁, rfl, hw₁, hperm₁, hpairs₁⟩ := hmoves.placed hs hw n
    have hbound : ∀ x ∈ placed₁ ++ waiting₁, x.2 < n + (resolve s.previous l.token).converted.length := by
      intro x hx
      rcases List.mem_append.1 (hperm₁.subset hx) with hx | hx
      · exact (List.mem_zipIdx (x := x.1) (i := x.2) hx).2.1
      · exact Nat.lt_add_right _ (hn x hx)
    obtain ⟨placed₂, waiting₂, rfl, hw₂, hperm₂, hpairs₂⟩ :=
      ih hs₁ hrun hw₁ fun x hx => hbound x (List.mem_append_right _ hx)
    let here := (resolve s.previous l.token).converted.zipIdx n
    let there := (contents (some (resolve s.previous l.token)) (ls.map Lexeme.token)).zipIdx
      (n + (resolve s.previous l.token).converted.length)
    refine ⟨placed₁ ++ placed₂, waiting₂, List.map_append, hw₂, ?_, ?_⟩
    · calc placed₁ ++ placed₂ ++ waiting₂
        _ = placed₁ ++ (placed₂ ++ waiting₂) := List.append_assoc ..
        List.Perm _ (placed₁ ++ (there ++ waiting₁)) := hperm₂.append_left placed₁
        List.Perm _ (there ++ (placed₁ ++ waiting₁)) := List.perm_append_comm_assoc ..
        List.Perm _ (there ++ (here ++ waiting)) := hperm₁.append_left there
        List.Perm _ (here ++ (there ++ waiting)) := List.perm_append_comm_assoc ..
        _ = (contents s.previous ((l :: ls).map Lexeme.token)).zipIdx n ++ waiting := by
          rw [List.map_cons, contents, List.zipIdx_append, List.append_assoc]
    · refine List.pairwise_append.2 ⟨hpairs₁, hpairs₂, fun x hx y hy hnumber => ?_⟩
      rcases List.mem_append.1 (hperm₂.subset (List.mem_append_left _ hy)) with hy | hy
      · have hplace : n + (resolve s.previous l.token).converted.length ≤ y.2 :=
          (List.mem_zipIdx (x := y.1) (i := y.2) hy).1
        exact (hbound x (List.mem_append_left _ hx)).trans_le hplace
      · exact absurd hnumber (not_number_of_waiting hs₁ (hw₁ ▸ List.mem_map_of_mem hy))

/-- Along a run nothing is lost, whatever waits at its start. -/
theorem run_perm {ls : List Lexeme} {s s' : State} (hs : ∀ t ∈ s.stack, IsWaiting t) {out : List Token}
    (h : s.run (ls.map Lexeme.token) = .ok (out, s')) :
    (out ++ waitingOperators s'.stack).Perm
      (contents s.previous (ls.map Lexeme.token) ++ waitingOperators s.stack) := by
  have hw : ((waitingOperators s.stack).map (·, 0)).map Prod.fst = waitingOperators s.stack := by
    rw [List.map_map]
    exact List.map_id _
  obtain ⟨placed, waiting', rfl, hw', hperm, -⟩ := run_placed hs h hw (n := 1) (by simp)
  have htokens := hperm.map Prod.fst
  rwa [List.map_append, List.map_append, hw', hw, List.zipIdx_map_fst] at htokens

/-- A conversion puts out just what its tokens stand for and what waits at its start. -/
theorem convert_perm {s : State} (hs : ∀ t ∈ s.stack, IsWaiting t) {ls : List Lexeme} {ps : List Token}
    (h : convert s.previous s.stack (ls.map Lexeme.token) = .ok ps) :
    ps.Perm (contents s.previous (ls.map Lexeme.token) ++ waitingOperators s.stack) := by
  obtain ⟨out, s', hrun, hopen, rfl⟩ := convert_eq_ok h
  have hperm := run_perm hs hrun
  rwa [waitingOperators_eq hopen] at hperm

end

theorem ofTokens_perm {ls : List Lexeme} {ps : List Token} (h : ofTokens (ls.map Lexeme.token) = .ok ps) :
    ps.Perm (contents none (ls.map Lexeme.token)) := by
  have hperm := convert_perm waiting_start h
  rwa [State.start, waitingOperators, List.filter_nil, List.append_nil] at hperm

/-- What a conversion puts out is what is written, each number after nothing but what is written before it. -/
theorem ofTokens_placed {ls : List Lexeme} {ps : List Token} (h : ofTokens (ls.map Lexeme.token) = .ok ps) :
    ∃ placed : List Placed, placed.map Prod.fst = ps ∧
      placed.Perm (contents none (ls.map Lexeme.token)).zipIdx ∧ placed.Pairwise InOrder := by
  obtain ⟨out, s, hrun, hopen, rfl⟩ := convert_eq_ok (s := .start) h
  obtain ⟨placed, waiting, rfl, hw, hperm, hpairs⟩ :=
    run_placed waiting_start hrun List.map_nil (n := 0) (by simp)
  have hwaiting : ∀ x ∈ waiting, x.1.type ≠ .number := fun x hx =>
    not_number_of_waiting (run_waiting waiting_start hrun) (hw ▸ List.mem_map_of_mem hx)
  refine ⟨placed ++ waiting, ?_, ?_, ?_⟩
  · rw [List.map_append, hw, waitingOperators_eq hopen]
  · rw [List.append_nil] at hperm
    exact hperm
  · exact List.pairwise_append.2
      ⟨hpairs, pairwise_of_not_number hwaiting, fun x _ y hy hnumber => absurd hnumber (hwaiting y hy)⟩

end Postfix
end Reckoner
