import Mathlib.Algebra.BigOperators.Group.List.Basic
import Mathlib.Data.List.Chain
import Reckoner.Proofs.Conservation
import Reckoner.Proofs.Phrases
/-!
# Which texts are complete

The check for completeness only counts: it asks whether the operands that were put out are one more than
the binary operators take away (`gain`). Conversion loses nothing, so that is a count over the text itself
(`gain_contents`), wherever the operands stand, and an operand may make up for one that is missing
elsewhere.

That takes two operands side by side. Where there are none (`Apart`), no prefix has more operands than are
due, so each lexeme that does not stand at its place lowers the count for good (`placed_of_balance`). And if
all stand at their places, each operator finds its operands when it is put out (`run_depth`). So the
complete texts without operands side by side are the phrases (`isComplete_and_apart_iff`).
-/

namespace Reckoner

open Postfix

/-! ## Counting operands -/

namespace Postfix

/-- What a token adds to the values on a stack. -/
def gainOf (t : Token) : Int :=
  match t.type with
  | .number => 1
  | .operator | .function => 1 - t.arity
  | _ => 0

def gain (ts : List Token) : Int := (ts.map gainOf).sum

section
variable {ts us : List Token} {t : Token} {d k : Int}

@[simp] theorem gain_nil : gain [] = 0 := rfl

@[simp] theorem gain_cons (t : Token) (ts : List Token) : gain (t :: ts) = gainOf t + gain ts := by
  simp [gain]

@[simp] theorem gain_append (ts us : List Token) : gain (ts ++ us) = gain ts + gain us := by
  simp [gain]

theorem gain_eq_of_perm (h : ts.Perm us) : gain ts = gain us := (h.map gainOf).sum_eq

theorem gainOf_number (h : t.type = .number) : gainOf t = 1 := by
  simp [gainOf, h]

@[simp] theorem gainOf_operator (op : Operator) : gainOf op.token = 1 - op.arity := by
  rcases op.token_type with h | h <;> simp [gainOf, h]

theorem gainOf_waiting (h : IsWaiting t) : gainOf t ≤ 0 := by
  rcases h with rfl | ⟨op, rfl⟩
  · exact le_rfl
  · have := op.arity_pos
    rw [gainOf_operator]
    omega

/-- What waits takes operands and brings none. -/
theorem gain_waiting (h : ∀ t ∈ ts, IsWaiting t) : gain ts ≤ 0 := by
  induction ts with
  | nil => exact le_rfl
  | cons t ts ih =>
    have ht := gainOf_waiting (h t List.mem_cons_self)
    have hts := ih fun t ht => h t (List.mem_cons_of_mem _ ht)
    rw [gain_cons]
    omega

theorem gain_waitingOperators (ts : List Token) : gain (waitingOperators ts) = gain ts := by
  induction ts with
  | nil => rfl
  | cons t ts ih =>
    by_cases ht : t.type = .leftParen
    · have hgain : gainOf t = 0 := by simp [gainOf, ht]
      rw [waitingOperators, List.filter_cons_of_neg (by simp [ht]), gain_cons, hgain, zero_add]
      exact ih
    · rw [waitingOperators, List.filter_cons_of_pos (by simp [ht]), gain_cons, gain_cons]
      exact congrArg (gainOf t + ·) ih

/-- A token adds its gain to the depth, or it has no place there, whatever comes after it. -/
theorem depthFrom?_cons_cases (d : Int) (t : Token) :
    (∀ ts, depthFrom? d (t :: ts) = none) ∨
      ∀ ts, depthFrom? d (t :: ts) = depthFrom? (d + gainOf t) ts := by
  cases ht : t.type with
  | number => exact .inr fun ts => by rw [depthFrom?_number ht, gainOf_number ht]
  | operator | function =>
    have hgain : d + gainOf t = d - t.arity + 1 := by
      simp only [gainOf, ht]
      omega
    by_cases hd : d < t.arity
    · exact .inl fun ts => by simp [depthFrom?, ht, hd]
    · exact .inr fun ts => by simp [depthFrom?, ht, hd, hgain]
  | constant | leftParen | rightParen | other => exact .inl fun ts => by simp [depthFrom?, ht]

/-- A depth is what the tokens add up to. -/
theorem depthFrom?_eq_some (h : depthFrom? d ts = some k) : k = d + gain ts := by
  induction ts generalizing d with
  | nil => cases h; simp
  | cons t ts ih =>
    rcases depthFrom?_cons_cases d t with hnone | hcons
    · rw [hnone] at h
      cases h
    · rw [hcons] at h
      rw [ih h, gain_cons]
      omega

theorem depthFrom?_append (h : depthFrom? d ts = some k) (us : List Token) :
    depthFrom? d (ts ++ us) = depthFrom? k us := by
  induction ts generalizing d with
  | nil => cases h; rfl
  | cons t ts ih =>
    rcases depthFrom?_cons_cases d t with hnone | hcons
    · rw [hnone] at h
      cases h
    · rw [hcons] at h
      rw [List.cons_append, hcons, ih h]

/-- Operators find their operands if a value is left at the end. -/
theorem depthFrom?_operators (h : ∀ t ∈ ts, ∃ op : Operator, t = op.token) (hd : 1 ≤ d + gain ts) :
    depthFrom? d ts = some (d + gain ts) := by
  induction ts generalizing d with
  | nil => simp [depthFrom?]
  | cons t ts ih =>
    have hts : ∀ t ∈ ts, ∃ op : Operator, t = op.token := fun t ht => h t (List.mem_cons_of_mem _ ht)
    obtain ⟨op, rfl⟩ := h t List.mem_cons_self
    have hgain := gain_waiting fun t ht => .inr (hts t ht)
    rw [gain_cons, gainOf_operator] at hd ⊢
    rw [depthFrom?_operator, if_neg (by omega), ih hts (by omega)]
    congr 1
    omega

end

end Postfix

/-! ## The count of a text -/

namespace Lexeme

def isOperand : Lexeme → Bool
  | literal _ | symbol (.constant _) => true
  | _ => false

/-- Whether a lexeme is an operator between two operands; a minus where an operand is due is none. -/
def isBinary (due : Bool) : Lexeme → Bool
  | symbol (.binary op) => !(due && op = .sub)
  | _ => false

end Lexeme

def operandCount (ls : List Lexeme) : Nat := ls.countP Lexeme.isOperand

/-- How many operators stand between two operands, or should. -/
def binaryCount (due : Bool) : List Lexeme → Nat
  | [] => 0
  | l :: ls => (if l.isBinary due then 1 else 0) + binaryCount (!l.endsOperand) ls

/-- How many more operands a sequence brings than its binary operators take away. -/
def balance (due : Bool) (ls : List Lexeme) : Int := operandCount ls - binaryCount due ls

/-- The operands that are needed where one is due. -/
def needed (due : Bool) : Int := if due then 1 else 0

section
variable {due : Bool} {l : Lexeme} {ls : List Lexeme}

def Lexeme.balance (due : Bool) (l : Lexeme) : Int :=
  (if l.isOperand then 1 else 0) - if l.isBinary due then 1 else 0

theorem balance_cons : balance due (l :: ls) = l.balance due + balance (!l.endsOperand) ls := by
  simp only [balance, operandCount, Lexeme.balance, binaryCount, List.countP_cons]
  split <;> split <;> push_cast <;> omega

/-- Whether an operand is due depends on the lexeme before only. -/
theorem expectsOperand_resolve (previous : Option Token) (l : Lexeme) :
    expectsOperand (some (resolve previous l.token)) = !l.endsOperand := by
  rw [resolve_lexeme]
  split
  · next h => rw [h.2]; rfl
  · rcases l with n | _ | _ | op | f | c <;> rfl

theorem gain_converted_resolve (previous : Option Token) (l : Lexeme) :
    gain (resolve previous l.token).converted = l.balance (expectsOperand previous) := by
  rw [resolve_lexeme]
  split
  · next h => rw [h.1, h.2]; rfl
  · next h =>
    rcases l with n | _ | _ | op | f | c
    case symbol.binary =>
      have hminus : (expectsOperand previous && decide (op = .sub)) = false := by simpa using h
      simp [Lexeme.balance, Lexeme.isOperand, Lexeme.isBinary, hminus]
      rfl
    all_goals rfl

theorem gain_contents (previous : Option Token) (ls : List Lexeme) :
    gain (contents previous (ls.map Lexeme.token)) = balance (expectsOperand previous) ls := by
  induction ls generalizing previous with
  | nil => rfl
  | cons l ls ih =>
    rw [List.map_cons, contents, gain_append, gain_converted_resolve, ih, expectsOperand_resolve,
      balance_cons]

/-! ## Lexemes at their places -/

/-- A lexeme at its place brings what is needed there, up to what is needed after it. -/
theorem balance_of_standsAt (h : l.standsAt due = true) :
    l.balance due = needed due - needed (!l.endsOperand) := by
  cases due with
  | true =>
    rcases l with n | _ | _ | op | f | c
    case symbol.closeGroup => cases h
    case symbol.binary =>
      obtain rfl : op = .sub := by simpa [Lexeme.standsAt, Lexeme.beginsOperand] using h
      rfl
    all_goals rfl
  | false =>
    rcases l with n | _ | _ | op | f | c
    case symbol.closeGroup | symbol.binary => rfl
    all_goals cases h

/-- A lexeme where an operand is due in vain brings less. -/
theorem balance_of_not_standsAt (h : l.standsAt true = false) :
    l.balance true < needed true - needed (!l.endsOperand) := by
  rcases l with n | _ | _ | op | f | c
  case symbol.closeGroup => decide
  case symbol.binary =>
    have hop : op ≠ .sub := by simpa [Lexeme.standsAt, Lexeme.beginsOperand] using h
    simp [Lexeme.balance, Lexeme.isOperand, Lexeme.isBinary, hop, needed, Lexeme.endsOperand]
  all_goals cases h

/-- No operand begins right where another one ends. -/
def Apart (ls : List Lexeme) : Prop := ls.IsChain fun l m => l.endsOperand = true → m.beginsOperand = false

/-- Where no operands are side by side there are never more than needed, and just as many only if each
lexeme stands at its place. -/
theorem placed_of_balance (due : Bool) (hapart : Apart ls)
    (hdue : due = false → ∀ l ∈ ls.head?, l.beginsOperand = false) :
    balance due ls ≤ needed due ∧ (balance due ls = needed due → placed due ls = true) := by
  induction ls generalizing due with
  | nil => cases due <;> decide
  | cons l ls ih =>
    obtain ⟨hnext, htail⟩ := List.isChain_cons.1 hapart
    obtain ⟨hle, heq⟩ := ih (!l.endsOperand) htail fun hends m hm =>
      hnext m hm (by simpa using hends)
    rw [balance_cons]
    by_cases hl : l.standsAt due = true
    · have hbalance := balance_of_standsAt hl
      refine ⟨by omega, fun h => ?_⟩
      simp [placed, hl, heq (by omega)]
    · have hbalance : l.balance due < needed due - needed (!l.endsOperand) := by
        cases due with
        | true => exact balance_of_not_standsAt (by simpa using hl)
        | false => exact absurd (by simp [Lexeme.standsAt, hdue rfl l rfl]) hl
      exact ⟨by omega, by omega⟩

/-- At their places no two operands are side by side. -/
theorem apart_of_placed (h : placed due ls = true) : Apart ls := by
  induction ls generalizing due with
  | nil => exact .nil
  | cons l ls ih =>
    simp only [placed, Bool.and_eq_true] at h
    refine List.isChain_cons.2 ⟨fun m hm hends => ?_, ih h.2⟩
    cases ls with
    | nil => cases hm
    | cons m' ls =>
      cases hm
      have hm : m.standsAt false = true := by simp_all [placed]
      simpa [Lexeme.standsAt] using hm

/-! ## Operators and their operands -/

namespace Postfix

/-- What is put out finds its operands if one is left for what still waits. -/
theorem Moves.depth {stack out stack' : List Token} {t : Token} (h : Moves stack t out stack')
    (hs : ∀ t ∈ stack, IsWaiting t) {d : Int}
    (hpop : t.type = .rightParen ∨ t.arity = 2 → 1 ≤ d + gain stack) :
    ∃ k, depthFrom? d out = some k ∧ k + gain stack' = d + gain stack + gain t.converted := by
  have hgain : gain out + gain stack' = gain t.converted + gain stack := by
    simpa [gain_waitingOperators] using gain_eq_of_perm h.perm
  have hwaiting := gain_waiting (h.waiting hs)
  have popped : (∀ t ∈ out, ∃ op : Operator, t = op.token) → 1 ≤ d + gain out →
      ∃ k, depthFrom? d out = some k ∧ k + gain stack' = d + gain stack + gain t.converted :=
    fun hout hd => ⟨_, depthFrom?_operators hout hd, by omega⟩
  have operator : ∀ t ∈ stack, t.type ≠ .leftParen → ∃ op : Operator, t = op.token := fun t ht htype =>
    (hs t ht).resolve_left fun h => htype (by rw [h]; rfl)
  cases h with
  | number h =>
    have hone : gain [t] = 1 := by simp [gainOf_number h]
    exact ⟨d + 1, by rw [depthFrom?_number h]; rfl, by omega⟩
  | constant c =>
    have hone : gain [.number c.value c.spelling] = 1 := rfl
    exact ⟨d + 1, rfl, by omega⟩
  | opens | waits => exact ⟨d, rfl, by rw [gain_nil] at hgain; omega⟩
  | closes hstack htop hbelow =>
    have hd := hpop (.inl rfl)
    have hclose : gain Symbol.closeGroup.token.converted = 0 := rfl
    exact popped (fun t ht => operator t (by simp [hstack, ht]) (htop t ht)) (by omega)
  | @calls f top below hstack htop =>
    have hd := hpop (.inl rfl)
    have hclose : gain Symbol.closeGroup.token.converted = 0 := rfl
    refine popped (fun t ht => ?_) (by omega)
    rcases List.mem_append.1 ht with ht | ht
    · exact operator t (by simp [hstack, ht]) (htop t ht)
    · exact ⟨.function f, List.mem_singleton.1 ht⟩
  | takes op =>
    have hd := hpop (.inr rfl)
    have hrest := gain_waiting fun t ht =>
      hs t ((List.dropWhile_sublist (bindsAtLeast op.precedence)).subset ht)
    have hsplit : gain stack = gain (stack.takeWhile (bindsAtLeast op.precedence)) +
        gain (stack.dropWhile (bindsAtLeast op.precedence)) := by
      rw [← gain_append, List.takeWhile_append_dropWhile]
    refine popped (fun t ht => ?_) (by omega)
    have htype := type_of_bindsAtLeast (List.mem_takeWhile_imp ht)
    exact operator t ((List.takeWhile_sublist _).subset ht) (by simp [htype])

/-- What begins an operand takes nothing off the stack. -/
theorem resolve_of_due {previous : Option Token} (hdue : expectsOperand previous = true)
    (hl : l.standsAt true = true) :
    ¬ ((resolve previous l.token).type = .rightParen ∨ (resolve previous l.token).arity = 2) := by
  rw [resolve_lexeme]
  split
  · next h => decide
  · next h =>
    rcases l with n | _ | _ | op | f | c
    case symbol.binary => simp_all [Lexeme.standsAt, Lexeme.beginsOperand]
    case symbol.closeGroup => cases hl
    all_goals simp [Lexeme.token, Symbol.token, Token.number]

/-- With each lexeme at its place, what is put out always finds its operands, and what waits will. -/
theorem run_depth {s s' : State} (hs : ∀ t ∈ s.stack, IsWaiting t)
    (hplaced : placed (expectsOperand s.previous) ls = true) {d : Int}
    (hd : d + gain s.stack = 1 - needed (expectsOperand s.previous)) {out : List Token}
    (h : s.run (ls.map Lexeme.token) = .ok (out, s')) :
    ∃ k, depthFrom? d out = some k ∧ k + gain s'.stack = 1 := by
  induction ls generalizing s d out with
  | nil =>
    have hdue : expectsOperand s.previous = false := by simpa [placed] using hplaced
    rw [hdue] at hd
    cases h
    exact ⟨d, rfl, hd⟩
  | cons l ls ih =>
    simp only [placed, Bool.and_eq_true] at hplaced
    obtain ⟨hl, hls⟩ := hplaced
    obtain ⟨out₁, stack, out₂, hmoves, hstack, hrun, rfl⟩ := State.run_cons_eq_ok hs h
    have hpop : (resolve s.previous l.token).type = .rightParen ∨ (resolve s.previous l.token).arity = 2 →
        1 ≤ d + gain s.stack := by
      intro ht
      cases hdue : expectsOperand s.previous with
      | false => rw [hd, hdue]; decide
      | true => exact absurd ht (resolve_of_due hdue (hdue ▸ hl))
    obtain ⟨k, hk, hkeep⟩ := hmoves.depth hs hpop
    have hbalance := balance_of_standsAt hl
    rw [gain_converted_resolve] at hkeep
    obtain ⟨k', hk', hend⟩ := ih (s := ⟨some (resolve s.previous l.token), stack⟩) (d := k) hstack
      (by rw [expectsOperand_resolve]; exact hls) (by rw [expectsOperand_resolve]; dsimp only; omega) hrun
    exact ⟨k', by rw [depthFrom?_append hk, hk'], hend⟩

end Postfix

/-! ## Completeness -/

/-- Whether a sequence is converted to one that leaves one value. -/
def IsComplete (ls : List Lexeme) : Prop :=
  ∃ ps, ofTokens (ls.map Lexeme.token) = .ok ps ∧ depth? ps = some 1

theorem isCompleteExpression_iff (text : String) :
    isCompleteExpression text = true ↔ IsComplete (Lexeme.scan text.toList) := by
  unfold isCompleteExpression IsComplete tokenize
  rcases ofTokens_scanned (Lexeme.scan text.toList) with ⟨ps, hps, -⟩ | ⟨err, herr, -⟩
  · simp [hps, isComplete_iff]
  · simp [herr]

theorem IsComplete.balance_eq (h : IsComplete ls) : balance true ls = 1 := by
  obtain ⟨ps, hps, hdepth⟩ := h
  have hgain := depthFrom?_eq_some hdepth
  rw [gain_eq_of_perm (ofTokens_perm hps), gain_contents] at hgain
  have : balance (expectsOperand none) ls = balance true ls := rfl
  omega

theorem IsComplete.groups?_eq (h : IsComplete ls) : groups? 0 ls = some 0 := by
  obtain ⟨ps, hps, -⟩ := h
  rcases ofTokens_groups ls with ⟨-, herr⟩ | ⟨n, -, herr⟩ | ⟨hgroups, -⟩
  · simp [herr] at hps
  · simp [herr] at hps
  · exact hgroups

theorem IsComplete.of_placed (hplaced : placed true ls = true) (hgroups : groups? 0 ls = some 0) :
    IsComplete ls := by
  rcases ofTokens_groups ls with ⟨hnone, -⟩ | ⟨n, hsome, -⟩ | ⟨-, ps, hps⟩
  · simp [hnone] at hgroups
  · simp [hsome] at hgroups
  · obtain ⟨out, s, hrun, hopen, rfl⟩ := convert_eq_ok (s := .start) hps
    obtain ⟨k, hk, hend⟩ := run_depth (d := 0) waiting_start hplaced rfl hrun
    have hops : ∀ t ∈ s.stack, ∃ op : Operator, t = op.token := fun t ht =>
      (run_waiting waiting_start hrun t ht).resolve_left fun h => hopen t ht (by rw [h]; rfl)
    refine ⟨_, hps, ?_⟩
    rw [depth?, depthFrom?_append hk, depthFrom?_operators hops (by omega), hend]

/-- The complete sequences with no operands side by side are the phrases. -/
theorem isComplete_and_apart_iff : IsComplete ls ∧ Apart ls ↔ IsPhrase .expression ls := by
  rw [isPhrase_iff]
  constructor
  · rintro ⟨hcomplete, hapart⟩
    have hplaced : placed true ls = true := (placed_of_balance true hapart nofun).2 hcomplete.balance_eq
    exact ⟨hplaced, hcomplete.groups?_eq⟩
  · rintro ⟨hplaced, hgroups⟩
    exact ⟨.of_placed hplaced hgroups, apart_of_placed hplaced⟩

end

/-- A complete text has matching parentheses and one operand more than it has binary operators, and it fails
on nothing but a factorial. The phrases are the complete texts without operands side by side: in those
each lexeme stands at its place. -/
theorem isCompleteExpression_spec (text : String) :
    let ls := Lexeme.scan text.toList
    (isCompleteExpression text = true →
      ¬ ClosesTooMuch ls ∧ ¬ LeavesOpen ls ∧ operandCount ls = binaryCount true ls + 1 ∧
      (Apart ls → placed true ls = true) ∧
      ∀ mode, (∃ x, evaluate mode false text = .ok x) ∨
        ∃ err, evaluate mode false text = .error (.evaluation err) ∧ err.kind = .invalidArgument) ∧
    (IsPhrase .expression ls ↔ isCompleteExpression text = true ∧ Apart ls) := by
  intro ls
  rw [isCompleteExpression_iff, isComplete_and_apart_iff]
  refine ⟨fun hcomplete => ?_, .rfl⟩
  obtain ⟨hclose, hopen⟩ := exists_ofTokens_iff.1 (hcomplete.imp fun _ => And.left)
  have hbalance : (operandCount ls : Int) - binaryCount true ls = 1 := hcomplete.balance_eq
  refine ⟨hclose, hopen, by omega, fun hapart => ?_, fun mode => ?_⟩
  · exact (isPhrase_iff.1 (isComplete_and_apart_iff.1 ⟨hcomplete, hapart⟩)).1
  · exact evaluate_of_complete ((isCompleteExpression_iff text).2 hcomplete) mode false

/-- Operands before their operator are complete and no phrase. -/
theorem not_forall_complete_isPhrase :
    ¬ ∀ text, isCompleteExpression text = true → IsPhrase .expression (Lexeme.scan text.toList) := by
  intro h
  have hcomplete : isCompleteExpression "2 3 +" = true := by decide +kernel
  have hplaced : placed true (Lexeme.scan "2 3 +".toList) = false := by decide +kernel
  have hphrase := (isPhrase_iff.1 (h "2 3 +" hcomplete)).1
  rw [hplaced] at hphrase
  cases hphrase

end Reckoner
