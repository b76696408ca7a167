import Mathlib.Data.List.Perm.Subperm
import Reckoner.Proofs.Conservation
/-!
# The shape of the stack

Open groups and functions cut the stack of waiting operators into segments. From bottom to top a segment holds binary
operators, each tighter than the one below, and then negations (`Rises`): a binary operator first takes off all that
is not looser, and a negation, which takes nothing off, is only ever on top. Every move keeps that (`Moves.shaped`),
whatever sense the text makes.

So a binary operator takes off just what is not looser in its segment (`TakesOff`). All else that was written since
the segment began is out by then (`exists_written`), so of two operators of one segment the left one comes out first
unless the right one is tighter.
-/

namespace Reckoner.Postfix

/-! ## Segments -/

/-- Whether a segment of the stack begins above a token. -/
def beginsSegment (t : Token) : Bool := t.type = .leftParen || t.type = .function

/-- The parts of a stack between its open groups and functions, the top one first. -/
def segments (stack : List Token) : List (List Token) := stack.splitOnP beginsSegment

/-- A segment, read from its top: negations, and below them binary operators, each tighter than all that follow. -/
def Rises (segment : List Token) : Prop :=
  ∃ (n : Nat) (ops : List BinaryOp),
    segment = List.replicate n Token.negation ++ ops.map (fun op => (Symbol.binary op).token) ∧
    ops.Pairwise fun upper lower => lower.precedence < upper.precedence

def Shaped (stack : List Token) : Prop := ∀ segment ∈ segments stack, Rises segment

/-- A stack is its top segment above what begins it, if anything does. -/
theorem exists_top_segment (stack : List Token) : ∃ top below, stack = top ++ below ∧
    (∀ t ∈ top, beginsSegment t = false) ∧ ∀ t ∈ below.head?, beginsSegment t = true := by
  refine ⟨stack.takeWhile (!beginsSegment ·), stack.dropWhile (!beginsSegment ·),
    List.takeWhile_append_dropWhile.symm, fun t ht => ?_, fun t ht => ?_⟩
  · simpa using List.mem_takeWhile_imp ht
  · have hhead := List.head?_dropWhile_not (fun t => !beginsSegment t) stack
    rw [Option.mem_def.1 ht] at hhead
    simpa using hhead

section
variable {top below : List Token}

theorem segments_append (htop : ∀ t ∈ top, beginsSegment t = false)
    (hbelow : ∀ t ∈ below.head?, beginsSegment t = true) :
    segments (top ++ below) = top :: (segments below).tail := by
  cases below with
  | nil => simp [segments, List.splitOnP_eq_singleton htop]
  | cons t below =>
    have ht := hbelow t rfl
    rw [segments, segments, List.splitOnP_append_cons_of_forall_mem htop t ht,
      List.splitOnP_cons_eq_if_modifyHead, if_pos ht, List.tail_cons]

theorem shaped_append (htop : ∀ t ∈ top, beginsSegment t = false)
    (hbelow : ∀ t ∈ below.head?, beginsSegment t = true) :
    Shaped (top ++ below) ↔ Rises top ∧ ∀ segment ∈ (segments below).tail, Rises segment := by
  rw [Shaped, segments_append htop hbelow, List.forall_mem_cons]

end

/-! ## What rises -/

/-- Where a predicate only ever turns false, nothing that is left over satisfies it. -/
theorem eq_false_of_mem_dropWhile {α : Type} {p : α → Bool} {xs : List α}
    (h : xs.Pairwise fun x y => p y = true → p x = true) : ∀ x ∈ xs.dropWhile p, p x = false := by
  induction xs with
  | nil => simp
  | cons x xs ih =>
    obtain ⟨hx, hxs⟩ := List.pairwise_cons.1 h
    by_cases hp : p x = true
    · rw [List.dropWhile_cons_of_pos hp]
      exact ih hxs
    · have hrest : ∀ y ∈ xs, p y = false := fun y hy => by simpa using mt (hx y hy) hp
      rw [List.dropWhile_cons_of_neg hp]
      simpa [hp] using hrest

/-- Each operator that takes `u` off the stack would take off `t`, too. -/
def BindsLike (t u : Token) : Prop := ∀ p, bindsAtLeast p u = true → bindsAtLeast p t = true

theorem precedence_mem (op : BinaryOp) : op.precedence ∈ [1, 2, 3] := by
  cases op <;> decide

theorem length_le_three {ops : List BinaryOp}
    (h : ops.Pairwise fun upper lower => lower.precedence < upper.precedence) : ops.length ≤ 3 := by
  have hnodup : (ops.map BinaryOp.precedence).Nodup := List.pairwise_map.2 (h.imp fun h => h.ne')
  have hsub : ops.map BinaryOp.precedence ⊆ [1, 2, 3] := fun p hp => by
    obtain ⟨op, -, rfl⟩ := List.mem_map.1 hp
    exact precedence_mem op
  simpa using (hnodup.subperm hsub).length_le

namespace Rises

variable {segment : List Token}

theorem nil : Rises [] := ⟨0, [], rfl, .nil⟩

theorem negation (h : Rises segment) : Rises (Token.negation :: segment) := by
  obtain ⟨n, ops, rfl, hops⟩ := h
  exact ⟨n + 1, ops, rfl, hops⟩

/-- What is further up binds at least as tightly. -/
theorem pairwise_bindsLike (h : Rises segment) : segment.Pairwise BindsLike := by
  obtain ⟨n, ops, rfl, hops⟩ := h
  refine List.pairwise_append.2 ⟨?_, ?_, ?_⟩
  · exact List.pairwise_replicate.2 (.inr fun _ h => h)
  · refine List.pairwise_map.2 (hops.imp fun hlt p hp => ?_)
    simp only [bindsAtLeast_binary, decide_eq_true_eq] at hp ⊢
    omega
  · intro t ht u hu p hp
    obtain rfl := List.eq_of_mem_replicate ht
    obtain ⟨op, -, rfl⟩ := List.mem_map.1 hu
    cases op <;> simp_all [bindsAtLeast, Token.negation, Symbol.token, BinaryOp.precedence] <;> omega

theorem countP_binary (h : Rises segment) : segment.countP (·.arity = 2) ≤ 3 := by
  obtain ⟨n, ops, rfl, hops⟩ := h
  have hneg : (List.replicate n Token.negation).countP (·.arity = 2) = 0 := by
    simp [List.countP_replicate, Token.negation]
  calc (List.replicate n Token.negation ++ ops.map (fun op => (Symbol.binary op).token)).countP (·.arity = 2)
      ≤ 0 + (ops.map fun op => (Symbol.binary op).token).length := by
        rw [List.countP_append, hneg]
        exact Nat.add_le_add_left List.countP_le_length 0
    _ ≤ 3 := by simpa using length_le_three hops

/-- No binary operator lies above a negation. -/
theorem pairwise_negation (h : Rises segment) :
    segment.Pairwise fun upper lower => upper.arity = 2 → lower ≠ Token.negation := by
  obtain ⟨n, ops, rfl, -⟩ := h
  have hbinary : ∀ op : BinaryOp, (Symbol.binary op).token ≠ Token.negation := by
    intro op
    cases op <;> decide
  refine List.pairwise_append.2 ⟨?_, ?_, ?_⟩
  · exact List.pairwise_replicate.2 (.inr fun h => by simp [Token.negation] at h)
  · exact List.pairwise_map.2 (List.pairwise_of_forall fun _ op _ => hbinary op)
  · intro t ht u hu harity
    obtain ⟨op, -, rfl⟩ := List.mem_map.1 hu
    exact hbinary op

/-- A binary operator takes off all that is not looser, and what is left is looser. -/
theorem eq_false_of_mem_dropWhile (h : Rises segment) (p : Int) :
    ∀ t ∈ segment.dropWhile (bindsAtLeast p), bindsAtLeast p t = false :=
  Postfix.eq_false_of_mem_dropWhile (h.pairwise_bindsLike.imp fun h => h p)

/-- A binary operator goes on top of what is looser. -/
theorem binary (h : Rises segment) (op : BinaryOp) :
    Rises ((Symbol.binary op).token :: segment.dropWhile (bindsAtLeast op.precedence)) := by
  have hlooser := h.eq_false_of_mem_dropWhile op.precedence
  obtain ⟨n, ops, rfl, hops⟩ := h
  have hneg : ∀ t ∈ List.replicate n Token.negation, bindsAtLeast op.precedence t = true := fun t ht => by
    rw [List.eq_of_mem_replicate ht]
    cases op <;> rfl
  rw [List.dropWhile_append_of_pos hneg, List.dropWhile_map] at hlooser ⊢
  refine ⟨0, op :: _, rfl, List.pairwise_cons.2 ⟨fun lower hlower => ?_, ?_⟩⟩
  · simpa using hlooser _ (List.mem_map_of_mem hlower)
  · exact hops.sublist (List.dropWhile_sublist _)

end Rises

/-! ## Moves -/

section
variable {top below stack out stack' : List Token} {t : Token}

theorem bindsAtLeast_of_beginsSegment (h : beginsSegment t = true) (p : Int) : bindsAtLeast p t = false := by
  simp only [beginsSegment, Bool.or_eq_true, decide_eq_true_eq] at h
  rcases h with h | h <;> simp [bindsAtLeast, h]

/-- What binds tightly enough is taken off the top segment only. -/
theorem takeWhile_top (hbelow : ∀ t ∈ below.head?, beginsSegment t = true) (top : List Token) (p : Int) :
    (top ++ below).takeWhile (bindsAtLeast p) = top.takeWhile (bindsAtLeast p) ∧
      (top ++ below).dropWhile (bindsAtLeast p) = top.dropWhile (bindsAtLeast p) ++ below := by
  have hstop : below.takeWhile (bindsAtLeast p) = [] ∧ below.dropWhile (bindsAtLeast p) = below := by
    cases below with
    | nil => simp
    | cons t below => simp [bindsAtLeast_of_beginsSegment (hbelow t rfl) p]
  rw [List.takeWhile_append, List.dropWhile_append, hstop.1, hstop.2]
  constructor
  · split
    · next h => rw [List.append_nil, (List.takeWhile_prefix _).eq_of_length h]
    · rfl
  · split
    · next h => rw [List.isEmpty_iff.1 h, List.nil_append]
    · rfl

/-- Below what begins a segment a stack keeps its shape. -/
theorem Shaped.of_begin (ht : beginsSegment t = true) (h : Shaped (top ++ t :: below)) : Shaped below := by
  intro segment hsegment
  rw [Shaped, segments, List.splitOnP_append_cons top below ht] at h
  exact h segment (List.mem_append_right _ hsegment)

theorem Shaped.begin (ht : beginsSegment t = true) (h : Shaped stack) : Shaped (t :: stack) := by
  rw [Shaped, segments, List.splitOnP_cons_eq_if_modifyHead, if_pos ht, List.forall_mem_cons]
  exact ⟨.nil, h⟩

/-- Every move keeps the shape of the stack. -/
theorem Moves.shaped (h : Moves stack t out stack') (hs : Shaped stack) : Shaped stack' := by
  cases h with
  | number | constant => exact hs
  | opens => exact hs.begin rfl
  | closes hstack => exact Shaped.of_begin (t := Symbol.openGroup.token) rfl (hstack ▸ hs)
  | @calls f top below hstack =>
    have hgroup : Shaped ([] ++ (Symbol.function f).token :: stack') :=
      Shaped.of_begin (t := Symbol.openGroup.token) rfl (hstack ▸ hs)
    exact hgroup.of_begin rfl
  | waits op harity =>
    cases op with
    | binary op => simp [Operator.arity] at harity
    | negation =>
      obtain ⟨top, below, rfl, htop, hbelow⟩ := exists_top_segment stack
      obtain ⟨hrises, hrest⟩ := (shaped_append htop hbelow).1 hs
      have htop' : ∀ t ∈ Token.negation :: top, beginsSegment t = false := by simpa using ⟨rfl, htop⟩
      exact (shaped_append htop' hbelow).2 ⟨hrises.negation, hrest⟩
    | function f => exact hs.begin rfl
  | takes op =>
    obtain ⟨top, below, rfl, htop, hbelow⟩ := exists_top_segment stack
    obtain ⟨hrises, hrest⟩ := (shaped_append htop hbelow).1 hs
    have htop' : ∀ t ∈ (Symbol.binary op).token :: top.dropWhile (bindsAtLeast op.precedence),
        beginsSegment t = false := by
      simpa using ⟨rfl, fun t ht => htop t ((List.dropWhile_sublist _).subset ht)⟩
    rw [(takeWhile_top hbelow top op.precedence).2]
    exact (shaped_append htop' hbelow).2 ⟨hrises.binary op, hrest⟩

/-- A move leaves the lower part of a stack, and at most its own token on top. -/
theorem Moves.suffix (h : Moves stack t out stack') :
    stack' <:+ stack ∨ ∃ rest, stack' = t :: rest ∧ rest <:+ stack := by
  cases h with
  | number | constant => exact .inl (List.suffix_refl _)
  | opens | waits => exact .inr ⟨stack, rfl, List.suffix_refl _⟩
  | closes hstack => exact .inl ⟨out ++ [Symbol.openGroup.token], by rw [hstack]; simp⟩
  | @calls f top below hstack =>
    exact .inl ⟨top ++ [Symbol.openGroup.token, (Symbol.function f).token], by rw [hstack]; simp⟩
  | takes op => exact .inr ⟨_, rfl, List.dropWhile_suffix _⟩

end

/-! ## Runs -/

section
variable {ls : List Lexeme} {s s' : State} {out : List Token}

theorem run_shaped (hs : ∀ t ∈ s.stack, IsWaiting t) (hshaped : Shaped s.stack)
    (h : s.run (ls.map Lexeme.token) = .ok (out, s')) : Shaped s'.stack := by
  induction ls generalizing s out with
  | nil => cases h; exact hshaped
  | cons l ls ih =>
    obtain ⟨out₁, stack, out₂, hmoves, hstack, hrun, rfl⟩ := State.run_cons_eq_ok hs h
    exact ih (s := ⟨some (resolve s.previous l.token), stack⟩) hstack (hmoves.shaped hshaped) hrun

/-- Each lower part of a stack was all of the stack at some place of the text, right behind its top. -/
theorem exists_opening (h : State.start.run (ls.map Lexeme.token) = .ok (out, s)) {below : List Token}
    (hbelow : below <:+ s.stack) :
    ∃ pre mid before s₁ since, ls = pre ++ mid ∧ State.start.run (pre.map Lexeme.token) = .ok (before, s₁) ∧
      s₁.stack = below ∧ s₁.previous = below.head? ∧ s₁.run (mid.map Lexeme.token) = .ok (since, s) ∧
      out = before ++ since := by
  induction ls using List.reverseRecOn generalizing s out with
  | nil =>
    cases h
    obtain rfl : below = [] := List.suffix_nil.1 hbelow
    exact ⟨[], [], [], .start, [], rfl, rfl, rfl, rfl, rfl, rfl⟩
  | append_singleton ls l ih =>
    rw [List.map_append] at h
    obtain ⟨out₁, s₁, out₂, hls, hl, rfl⟩ := State.run_append_eq_ok h
    -- either nothing has been taken off the lower part since, or the last token is on top of it
    by_cases hold : below <:+ s₁.stack
    · obtain ⟨pre, mid, before, s₂, since, rfl, hpre, hstack, hprevious, hmid, rfl⟩ := ih hls hold
      refine ⟨pre, mid ++ [l], before, s₂, since ++ out₂, by simp, hpre, hstack, hprevious, ?_, by simp⟩
      rw [List.map_append]
      exact State.run_append_ok hmid hl
    · have hlast : s₁.run (l.token :: [].map Lexeme.token) = .ok (out₂, s) := hl
      obtain ⟨out', stack, out'', hmoves, -, hend, -⟩ :=
        State.run_cons_eq_ok (run_waiting waiting_start hls) hlast
      cases hend
      obtain ⟨rest, rfl, hrest⟩ := hmoves.suffix.resolve_left fun hsuffix => hold (hbelow.trans hsuffix)
      obtain rfl := (List.suffix_cons_iff.1 hbelow).resolve_right fun hsuffix => hold (hsuffix.trans hrest)
      refine ⟨ls ++ [l], [], out₁ ++ out₂, _, [], by simp, ?_, rfl, rfl, rfl, by simp⟩
      rw [List.map_append]
      exact State.run_append_ok hls hl

/-- What a segment holds and all that has been put out since it began is what has been written since. -/
theorem exists_written (h : State.start.run (ls.map Lexeme.token) = .ok (out, s)) {top below : List Token}
    (hstack : s.stack = top ++ below) (htop : ∀ t ∈ top, beginsSegment t = false) :
    ∃ pre mid before s₁ since, ls = pre ++ mid ∧ State.start.run (pre.map Lexeme.token) = .ok (before, s₁) ∧
      s₁.stack = below ∧ s₁.previous = below.head? ∧ out = before ++ since ∧
      (since ++ top).Perm (contents s₁.previous (mid.map Lexeme.token)) := by
  have hbelow : below <:+ s.stack := hstack ▸ List.suffix_append ..
  obtain ⟨pre, mid, before, s₁, since, rfl, hpre, rfl, hprevious, hmid, rfl⟩ := exists_opening h hbelow
  refine ⟨pre, mid, before, s₁, since, rfl, hpre, rfl, hprevious, rfl, ?_⟩
  have hopen : ∀ t ∈ top, t.type ≠ .leftParen := fun t ht htype => by
    simpa [beginsSegment, htype] using htop t ht
  have hperm := run_perm (run_waiting waiting_start hpre) hmid
  rw [hstack, waitingOperators_append, waitingOperators_eq hopen, ← List.append_assoc] at hperm
  exact (List.perm_append_right_iff _).1 hperm

/-- After a token what waits comes out with all that is written behind it. -/
theorem exists_rest {l : Lexeme} {taken : List Token} (h : State.start.run (ls.map Lexeme.token) = .ok (out, s))
    (hl : s.advance l.token = .ok (taken, s')) {us : List Lexeme} {ps : List Token}
    (hps : ofTokens ((ls ++ l :: us).map Lexeme.token) = .ok ps) :
    ∃ rest, ps = out ++ taken ++ rest ∧
      rest.Perm (contents s'.previous (us.map Lexeme.token) ++ waitingOperators s'.stack) := by
  have hrun : State.start.run ((ls ++ [l]).map Lexeme.token) = .ok (out ++ taken, s') := by
    rw [List.map_append]
    exact State.run_concat_ok h hl
  have hwhole := convert_append hrun (us.map Lexeme.token)
  rw [← List.map_append, List.append_assoc, List.singleton_append] at hwhole
  have hps := hwhole.symm.trans hps
  cases hconvert : convert s'.previous s'.stack (us.map Lexeme.token) with
  | error f => rw [hconvert] at hps; cases hps
  | ok rest =>
    rw [hconvert] at hps
    cases hps
    exact ⟨rest, rfl, convert_perm (run_waiting waiting_start hrun) hconvert⟩

/-- A binary operator after `ls` takes off the part `taken` of its segment and goes on top of the part `left`. -/
structure TakesOff (op : BinaryOp) (ls : List Lexeme) (out : List Token) (s : State) (taken left below : List Token) :
    Prop where
  stack : s.stack = taken ++ left ++ below
  segment : (segments s.stack).head? = some (taken ++ left)
  advance : s.advance (Symbol.binary op).token =
    .ok (taken, ⟨some (Symbol.binary op).token, (Symbol.binary op).token :: (left ++ below)⟩)
  taken_tight : ∀ t ∈ taken, bindsAtLeast op.precedence t = true
  taken_order : taken.Pairwise BindsLike
  left_loose : ∀ t ∈ left, bindsAtLeast op.precedence t = false
  /-- All else that was written since the segment began, right behind the top of `below`, is out. -/
  before : ∃ pre mid earlier s₁ since, ls = pre ++ mid ∧
    State.start.run (pre.map Lexeme.token) = .ok (earlier, s₁) ∧ s₁.stack = below ∧ s₁.previous = below.head? ∧
    out = earlier ++ since ∧ (since ++ (taken ++ left)).Perm (contents s₁.previous (mid.map Lexeme.token))
  /-- The operator itself follows, with what still waits and what is written behind it. -/
  after : ∀ us ps, ofTokens ((ls ++ Lexeme.symbol (.binary op) :: us).map Lexeme.token) = .ok ps →
    ∃ rest, ps = out ++ taken ++ rest ∧
      rest.Perm (contents (some (Symbol.binary op).token) (us.map Lexeme.token) ++
        (Symbol.binary op).token :: waitingOperators (left ++ below))

theorem exists_takesOff (h : State.start.run (ls.map Lexeme.token) = .ok (out, s)) (hshaped : Shaped s.stack)
    {op : BinaryOp} (hop : op = .sub → expectsOperand s.previous = false) :
    ∃ taken left below, TakesOff op ls out s taken left below := by
  obtain ⟨top, below, hstack, htop, hbelow⟩ := exists_top_segment s.stack
  have hrises : Rises top := ((shaped_append htop hbelow).1 (hstack ▸ hshaped)).1
  have hadvance := s.advance_binary op hop (run_waiting waiting_start h)
  obtain ⟨htake, hdrop⟩ := takeWhile_top hbelow top op.precedence
  rw [hstack, htake, hdrop] at hadvance
  have hsplit : top.takeWhile (bindsAtLeast op.precedence) ++ top.dropWhile (bindsAtLeast op.precedence) = top :=
    List.takeWhile_append_dropWhile
  exact ⟨top.takeWhile (bindsAtLeast op.precedence), top.dropWhile (bindsAtLeast op.precedence), below, {
    stack := by rw [hsplit, hstack]
    segment := by rw [hsplit, hstack, segments_append htop hbelow, List.head?_cons]
    advance := hadvance
    taken_tight := fun t ht => List.mem_takeWhile_imp ht
    taken_order := hrises.pairwise_bindsLike.sublist (List.takeWhile_sublist _)
    left_loose := hrises.eq_false_of_mem_dropWhile op.precedence
    before := by
      rw [hsplit]
      exact exists_written h hstack htop
    after := fun us ps hps => by
      obtain ⟨rest, rfl, hrest⟩ := exists_rest h (l := .symbol (.binary op)) hadvance hps
      refine ⟨rest, rfl, ?_⟩
      rwa [show (Symbol.binary op).token = (Operator.binary op).token from rfl, waitingOperators_operator] at hrest }⟩

/-- After every token, each segment of the stack is from bottom to top binary operators, each tighter than the one
below, and then negations. A binary operator puts out all that is not looser in its segment, the tighter first, before
it comes out itself. -/
theorem stack_rises (h : State.start.run (ls.map Lexeme.token) = .ok (out, s)) :
    (∀ segment ∈ segments s.stack, Rises segment ∧ segment.countP (·.arity = 2) ≤ 3 ∧
      segment.Pairwise fun upper lower => upper.arity = 2 → lower ≠ Token.negation) ∧
    ∀ op : BinaryOp, (op = .sub → expectsOperand s.previous = false) →
      ∃ taken left below, TakesOff op ls out s taken left below := by
  have hshaped : Shaped s.stack := run_shaped waiting_start (by simp [Shaped, segments, State.start, Rises.nil]) h
  refine ⟨fun segment hsegment => ?_, fun op hop => exists_takesOff h hshaped hop⟩
  have hrises := hshaped segment hsegment
  exact ⟨hrises, hrises.countP_binary, hrises.pairwise_negation⟩

end

/-- After `π*(e+π*e^--i` the operators of the group stand above each other, and both minus signs on top. -/
theorem stack_rises_two_minus_signs :
    let ls : List Lexeme := [.symbol (.constant .pi), .symbol (.binary .mul), .symbol .openGroup,
      .symbol (.constant .e), .symbol (.binary .add), .symbol (.constant .pi), .symbol (.binary .mul),
      .symbol (.constant .e), .symbol (.binary .pow), .symbol (.binary .sub), .symbol (.binary .sub),
      .symbol (.constant .i)]
    let out : List Token := [.pi, .e, .pi, .e, .i].map fun c => Atom.token (.constant c)
    let binary (op : BinaryOp) : Token := (Symbol.binary op).token
    let s : State := ⟨some (Symbol.constant .i).token, [.negation, .negation, binary .pow, binary .mul, binary .add,
      Symbol.openGroup.token, binary .mul]⟩
    State.start.run (ls.map Lexeme.token) = .ok (out, s) ∧
    (∀ segment ∈ segments s.stack, Rises segment ∧ segment.countP (·.arity = 2) ≤ 3 ∧
      segment.Pairwise fun upper lower => upper.arity = 2 → lower ≠ Token.negation) ∧
    ∃ taken left below, TakesOff .mul ls out s taken left below := by
  intro ls out binary s
  have h : State.start.run (ls.map Lexeme.token) = .ok (out, s) := rfl
  exact ⟨h, (stack_rises h).1, (stack_rises h).2 .mul (by simp)⟩

end Reckoner.Postfix
