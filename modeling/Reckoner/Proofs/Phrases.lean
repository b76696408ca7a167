import Reckoner.Proofs.Nesting
/-!
# Phrases

The grammar of expressions in infix order, without levels (`IsPhrase`). It asks for two things only: that
all groups are closed, and that at each place where an operand is due, and at no other, something stands
that begins one (`placed`). Each phrase has both (`IsPhrase.placed_append`, `IsPhrase.groups?_append`), and
what has both is read as a phrase from left to right, each time up to the end of the group around it
(`takeable`, `isPhrase_iff`).
-/

namespace Reckoner

/-! ## Grammar -/

inductive PhraseKind where
  | primary
  | expression

/-- An expression is a sequence of primaries with binary operators between them. -/
inductive IsPhrase : PhraseKind → List Lexeme → Prop
  | literal (n : Literal) : IsPhrase .primary [.literal n]
  | constant (c : Constant) : IsPhrase .primary [.symbol (.constant c)]
  | group {ls : List Lexeme} :
      IsPhrase .expression ls → IsPhrase .primary (.symbol .openGroup :: ls ++ [.symbol .closeGroup])
  | call {ls : List Lexeme} (f : Func) : IsPhrase .expression ls →
      IsPhrase .primary (.symbol (.function f) :: .symbol .openGroup :: ls ++ [.symbol .closeGroup])
  | bareCall {ls : List Lexeme} (f : Func) :
      IsPhrase .expression ls → IsPhrase .primary (.symbol (.function f) :: ls)
  | negate {ls : List Lexeme} : IsPhrase .primary ls → IsPhrase .primary (.symbol (.binary .sub) :: ls)
  | primary {ls : List Lexeme} : IsPhrase .primary ls → IsPhrase .expression ls
  | binary {ls ms : List Lexeme} (op : BinaryOp) : IsPhrase .expression ls → IsPhrase .primary ms →
      IsPhrase .expression (ls ++ .symbol (.binary op) :: ms)

namespace IsPhrase
variable {kind : PhraseKind} {ls ms : List Lexeme}

/-- Two expressions with an operator between them are one. -/
theorem append (op : BinaryOp) (h : IsPhrase .expression ls) (h' : IsPhrase .expression ms) :
    IsPhrase .expression (ls ++ .symbol (.binary op) :: ms) := by
  generalize hkind : PhraseKind.expression = kind at h'
  induction h' with
  | primary h' => exact .binary op h h'
  | binary op' _ h' ih =>
    have hbinary := IsPhrase.binary op' (ih hkind) h'
    rwa [List.append_assoc] at hbinary
  | _ => cases hkind

/-- A minus before an expression counts for its first primary. -/
theorem minus (h : IsPhrase .expression ls) : IsPhrase .expression (.symbol (.binary .sub) :: ls) := by
  generalize hkind : PhraseKind.expression = kind at h
  induction h with
  | primary h => exact .primary (.negate h)
  | binary op _ h ih => exact .binary op (ih hkind) h
  | _ => cases hkind

end IsPhrase

/-! ## Places -/

namespace Lexeme

def beginsOperand : Lexeme → Bool
  | literal _ | symbol (.constant _) | symbol (.function _) | symbol .openGroup => true
  | _ => false

def endsOperand : Lexeme → Bool
  | literal _ | symbol (.constant _) | symbol .closeGroup => true
  | _ => false

/-- Whether a lexeme may stand where an operand is due, or where none is due. -/
def standsAt (due : Bool) (l : Lexeme) : Bool :=
  if due then l.beginsOperand || l = .symbol (.binary .sub) else !l.beginsOperand

end Lexeme

/-- Whether each lexeme stands at its place, and no operand is due at the end. -/
def placed (due : Bool) : List Lexeme → Bool
  | [] => !due
  | l :: ls => l.standsAt due && placed (!l.endsOperand) ls

section
variable {kind : PhraseKind} {ls : List Lexeme}

theorem IsPhrase.placed_append (h : IsPhrase kind ls) {rest : List Lexeme}
    (hrest : placed false rest = true) : placed true (ls ++ rest) = true := by
  induction h generalizing rest with
  | literal | constant =>
    simpa [placed, Lexeme.standsAt, Lexeme.beginsOperand, Lexeme.endsOperand] using hrest
  | group _ ih | call _ _ ih =>
    have hclose : placed false (.symbol .closeGroup :: rest) = true := hrest
    simpa [placed, Lexeme.standsAt, Lexeme.beginsOperand, Lexeme.endsOperand] using ih hclose
  | bareCall _ _ ih | negate _ ih =>
    simpa [placed, Lexeme.standsAt, Lexeme.beginsOperand, Lexeme.endsOperand] using ih hrest
  | primary _ ih => exact ih hrest
  | binary op _ _ ih ih' =>
    rw [List.append_assoc]
    exact ih (ih' hrest)

theorem IsPhrase.groups?_append (h : IsPhrase kind ls) (n : Nat) (rest : List Lexeme) :
    groups? n (ls ++ rest) = groups? n rest := by
  have hgroup : ∀ {ls : List Lexeme} (n : Nat) (rest : List Lexeme),
      (∀ (n : Nat) (rest : List Lexeme), groups? n (ls ++ rest) = groups? n rest) →
      groups? n (.symbol .openGroup :: ls ++ [.symbol .closeGroup] ++ rest) = groups? n rest := by
    intro ls n rest ih
    rw [List.append_assoc, List.cons_append, groups?_openGroup, ih]
    rfl
  induction h generalizing n rest with
  | literal | constant => exact groups?_cons_of_ne (by simp) (by simp)
  | group _ ih => exact hgroup n rest ih
  | call f _ ih => exact (groups?_cons_of_ne (by simp) (by simp)).trans (hgroup n rest ih)
  | bareCall f _ ih => exact (groups?_cons_of_ne (by simp) (by simp)).trans (ih n rest)
  | negate _ ih => exact (groups?_cons_of_ne (by simp) (by simp)).trans (ih n rest)
  | primary _ ih => exact ih n rest
  | binary op _ _ ih ih' =>
    rw [List.append_assoc, List.cons_append, ih, groups?_cons_of_ne (by simp) (by simp), ih']

end

/-! ## Reading a phrase -/

/-- A sequence begins with an expression that goes up to its end or to the end of the group around it. -/
structure Takes (n : Nat) (ls us rest : List Lexeme) : Prop where
  eq : ls = us ++ rest
  phrase : IsPhrase .expression us
  placed : placed false rest = true
  groups : groups? n rest = some 0
  ends : ∀ l ∈ rest.head?, l = .symbol .closeGroup

/-- Where an operand is due, an expression can be taken. -/
def Takeable (ls : List Lexeme) : Prop :=
  ∀ n, placed true ls = true → groups? n ls = some 0 → ∃ us rest, Takes n ls us rest

section
variable {n : Nat} {us ls : List Lexeme}

/-- An expression goes on with each operator after it. -/
theorem exists_takes_append (hus : IsPhrase .expression us) (hplaced : placed false ls = true)
    (hgroups : groups? n ls = some 0) (ih : ∀ ms : List Lexeme, ms.length < ls.length → Takeable ms) :
    ∃ us' rest, Takes n (us ++ ls) us' rest := by
  cases ls with
  | nil => exact ⟨us, [], by simp, hus, hplaced, hgroups, by simp⟩
  | cons l ls =>
    simp only [placed, Bool.and_eq_true] at hplaced
    obtain ⟨hl, hls⟩ := hplaced
    rcases l with m | _ | _ | op | f | c
    case symbol.closeGroup =>
      exact ⟨us, .symbol .closeGroup :: ls, rfl, hus, by simp [placed, hl, hls], hgroups, by simp⟩
    case symbol.binary =>
      rw [groups?_cons_of_ne (by simp) (by simp)] at hgroups
      obtain ⟨ms, rest, h⟩ := ih ls (by simp) n hls hgroups
      exact ⟨us ++ .symbol (.binary op) :: ms, rest, by simp [h.eq], hus.append op h.phrase, h.placed,
        h.groups, h.ends⟩
    all_goals cases hl

theorem takeable_of_shorter (ih : ∀ ms : List Lexeme, ms.length < ls.length → Takeable ms) :
    Takeable ls := by
  intro n hplaced hgroups
  cases ls with
  | nil => cases hplaced
  | cons l ls =>
    simp only [placed, Bool.and_eq_true] at hplaced
    obtain ⟨hl, hls⟩ := hplaced
    have hshort : ∀ ms : List Lexeme, ms.length < ls.length → Takeable ms := fun ms hms =>
      ih ms (by rw [List.length_cons]; omega)
    rcases l with m | _ | _ | op | f | c
    case literal =>
      rw [groups?_cons_of_ne (by simp) (by simp)] at hgroups
      exact exists_takes_append (.primary (.literal m)) hls hgroups hshort
    case symbol.constant =>
      rw [groups?_cons_of_ne (by simp) (by simp)] at hgroups
      exact exists_takes_append (.primary (.constant c)) hls hgroups hshort
    case symbol.openGroup =>
      obtain ⟨us, rest, h⟩ := ih ls (by simp) (n + 1) hls hgroups
      -- The group that was opened is open still, so something closes it.
      cases rest with
      | nil => cases h.groups
      | cons l rest =>
        obtain rfl := h.ends l rfl
        have hlength := congrArg List.length h.eq
        simp only [List.length_append, List.length_cons] at hlength
        have hplaced : placed false rest = true := h.placed
        have hgroups : groups? n rest = some 0 := h.groups
        obtain ⟨us', rest', h'⟩ := exists_takes_append (.primary h.phrase.group) hplaced hgroups
          fun ms hms => hshort ms (by omega)
        exact ⟨us', rest', by simpa [h.eq] using h'⟩
    case symbol.function =>
      rw [groups?_cons_of_ne (by simp) (by simp)] at hgroups
      obtain ⟨us, rest, h⟩ := ih ls (by simp) n hls hgroups
      exact ⟨_, rest, by rw [h.eq]; rfl, .primary (.bareCall f h.phrase), h.placed, h.groups, h.ends⟩
    case symbol.binary =>
      obtain rfl : op = .sub := by simpa [Lexeme.standsAt, Lexeme.beginsOperand] using hl
      rw [groups?_cons_of_ne (by simp) (by simp)] at hgroups
      obtain ⟨us, rest, h⟩ := ih ls (by simp) n hls hgroups
      exact ⟨_, rest, by rw [h.eq]; rfl, h.phrase.minus, h.placed, h.groups, h.ends⟩
    case symbol.closeGroup => cases hl

theorem takeable (ls : List Lexeme) : Takeable ls := by
  induction h : ls.length using Nat.strong_induction_on generalizing ls with
  | _ k ih => exact takeable_of_shorter fun ms hms => ih ms.length (h ▸ hms) ms rfl

/-- A sequence is an expression just if each lexeme of it stands at its place and all groups are closed. -/
theorem isPhrase_iff : IsPhrase .expression ls ↔ placed true ls = true ∧ groups? 0 ls = some 0 := by
  constructor
  · intro h
    have hplaced : placed true (ls ++ []) = true := h.placed_append rfl
    have hgroups := h.groups?_append 0 []
    rw [List.append_nil] at hplaced hgroups
    exact ⟨hplaced, hgroups⟩
  · rintro ⟨hplaced, hgroups⟩
    obtain ⟨us, rest, h⟩ := takeable ls 0 hplaced hgroups
    cases rest with
    | nil => rw [h.eq, List.append_nil]; exact h.phrase
    | cons l rest =>
      obtain rfl := h.ends l rfl
      cases h.groups

end

end Reckoner
