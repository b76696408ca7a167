import Mathlib.Data.List.Chain
import Mathlib.Data.List.TakeWhile
import Reckoner.Proofs.Grammar
/-!
# Scanning what is written

Lexemes that are written one after another without anything between them are scanned as they were, as
long as no two literals meet (`scan_write`). No spelling of a symbol starts another one and none starts a
literal, so a symbol is recognised before any text; a literal ends where no digit and no point follows.
In an expression two literals never meet.
-/

namespace Reckoner

/-! ## Symbols -/

namespace Symbol

theorem eq_of_spelling_prefix {s t : Symbol} (h : s.spelling.toList <+: t.spelling.toList) : s = t := by
  have distinct : ∀ s ∈ all, ∀ t ∈ all, s.spelling.toList <+: t.spelling.toList → s = t := by
    decide +kernel
  exact distinct s s.mem_all t t.mem_all h

/-- A symbol neither starts like a literal nor goes on with one. -/
theorem head_spelling (s : Symbol) : ∃ c cs, s.spelling.toList = c :: cs ∧ ¬ c.isDigit ∧ c ≠ '.' := by
  have heads : ∀ s ∈ all, s.spelling.toList.head?.any (fun c => !c.isDigit && c ≠ '.') := by
    decide +kernel
  have h := heads s s.mem_all
  cases hs : s.spelling.toList with
  | nil => simp [hs] at h
  | cons c cs => exact ⟨c, cs, rfl, by simpa [hs] using h⟩

end Symbol

/-! ## Literals -/

/-- No literal goes on into `cs`. -/
def EndsLiteral (cs : List Char) : Prop := ∀ c ∈ cs.head?, ¬ c.isDigit ∧ c ≠ '.'

theorem endsLiteral_nil : EndsLiteral [] := by
  simp [EndsLiteral]

theorem endsLiteral_spelling (s : Symbol) (cs : List Char) : EndsLiteral (s.spelling.toList ++ cs) := by
  obtain ⟨c, spelling, hs, hc⟩ := s.head_spelling
  rintro d hd
  rw [hs] at hd
  cases hd
  exact hc

namespace Literal

theorem takeWhile_digits {digits cs : List Char} (hd : digits.all Char.isDigit)
    (hcs : ∀ c ∈ cs.head?, ¬ c.isDigit) : (digits ++ cs).takeWhile Char.isDigit = digits := by
  rw [List.takeWhile_append_of_pos (List.all_eq_true.1 hd)]
  cases cs with
  | nil => simp
  | cons c cs => rw [List.takeWhile_cons_of_neg (hcs c rfl), List.append_nil]

theorem dropWhile_digits {digits cs : List Char} (hd : digits.all Char.isDigit)
    (hcs : ∀ c ∈ cs.head?, ¬ c.isDigit) : (digits ++ cs).dropWhile Char.isDigit = cs := by
  rw [List.dropWhile_append_of_pos (List.all_eq_true.1 hd)]
  cases cs with
  | nil => simp
  | cons c cs => rw [List.dropWhile_cons_of_neg (hcs c rfl)]

theorem first?_characters (n : Literal) {cs : List Char} (h : EndsLiteral cs) :
    first? (n.characters ++ cs) = some n := by
  obtain ⟨whole, fraction, hne, hwhole, hfraction⟩ := n
  have hcs : ∀ c ∈ cs.head?, ¬ c.isDigit := fun c hc => (h c hc).1
  cases fraction with
  | none =>
    simp only [first?, characters, List.append_nil, takeWhile_digits hwhole hcs, dropWhile_digits hwhole hcs]
    rw [dif_neg hne]
    simp only [Option.some.injEq, Literal.mk.injEq, true_and]
    split
    · exact absurd rfl (h _ rfl).2
    · rfl
  | some digits =>
    have hpoint : ∀ c ∈ ('.' :: (digits ++ cs)).head?, ¬ c.isDigit := by simp
    have htake := takeWhile_digits hwhole hpoint
    have hdrop := dropWhile_digits hwhole hpoint
    simp only [first?, characters, List.append_assoc, List.cons_append, htake, hdrop,
      takeWhile_digits hfraction hcs]
    rw [dif_neg hne]

theorem first?_spelling (s : Symbol) (cs : List Char) : first? (s.spelling.toList ++ cs) = none := by
  obtain ⟨c, spelling, hs, hc, -⟩ := s.head_spelling
  rw [hs, List.cons_append, first?, dif_pos (List.takeWhile_cons_of_neg hc)]

end Literal

/-! ## Lexemes -/

namespace Lexeme

theorem first?_symbol (s : Symbol) (cs : List Char) :
    first? (s.spelling.toList ++ cs) = some (.symbol s) := by
  have hfound : (Symbol.all.find? fun t => t.spelling.toList.isPrefixOf (s.spelling.toList ++ cs)) = some s := by
    cases hfind : Symbol.all.find? fun t => t.spelling.toList.isPrefixOf (s.spelling.toList ++ cs) with
    | none =>
      have := List.find?_eq_none.1 hfind s s.mem_all
      simp at this
    | some t =>
      have ht : t.spelling.toList <+: s.spelling.toList ++ cs := by
        simpa using List.find?_some hfind
      rcases List.prefix_or_prefix_of_prefix ht (List.prefix_append _ _) with h | h
      · rw [Symbol.eq_of_spelling_prefix h]
      · rw [Symbol.eq_of_spelling_prefix h]
  simp [first?, Literal.first?_spelling, hfound]

theorem first?_characters {l : Lexeme} {cs : List Char} (h : ∀ n, l = .literal n → EndsLiteral cs) :
    first? (l.characters ++ cs) = some l := by
  cases l with
  | literal n => simp [first?, characters, n.first?_characters (h n rfl)]
  | symbol s => exact first?_symbol s cs

theorem scan_cons {l : Lexeme} {cs : List Char} (h : first? (l.characters ++ cs) = some l) :
    scan (l.characters ++ cs) = l :: scan cs := by
  obtain ⟨c, rest, hl⟩ := List.exists_cons_of_ne_nil l.characters_ne_nil
  rw [hl, List.cons_append] at h ⊢
  rw [scan, h]
  simp only [← List.cons_append, ← hl, List.drop_left]

/-- A text without gaps. -/
def write (ls : List Lexeme) : String := String.ofList (ls.flatMap characters)

/-- Not both are literals. -/
def Apart (l m : Lexeme) : Prop := (∃ s, l = .symbol s) ∨ ∃ s, m = .symbol s

theorem endsLiteral_of_apart {n : Literal} {ls : List Lexeme} (h : (Lexeme.literal n :: ls).IsChain Apart) :
    EndsLiteral (ls.flatMap characters) := by
  cases ls with
  | nil => exact endsLiteral_nil
  | cons m ls =>
    rw [List.isChain_cons_cons] at h
    obtain ⟨s, hs⟩ | ⟨s, rfl⟩ := h.1
    · cases hs
    · exact endsLiteral_spelling s _

theorem scan_write {ls : List Lexeme} (h : ls.IsChain Apart) : scan (write ls).toList = ls := by
  rw [write, String.toList_ofList]
  induction ls with
  | nil => rw [List.flatMap_nil, scan]
  | cons l ls ih =>
    rw [List.flatMap_cons, scan_cons (first?_characters fun n hn => endsLiteral_of_apart (hn ▸ h)),
      ih h.tail]

end Lexeme

/-- Two literals never meet in an expression. -/
theorem Derives.apart {p : Int} {bare : Bool} {ls : List Lexeme} {e : Expression Atom}
    (h : Derives p bare ls e) : ls.IsChain Lexeme.Apart := by
  have cons : ∀ {s ls}, ls.IsChain Lexeme.Apart → (Lexeme.symbol s :: ls).IsChain Lexeme.Apart :=
    fun h => List.isChain_cons.2 ⟨fun _ _ => .inl ⟨_, rfl⟩, h⟩
  have concat : ∀ {s ls}, ls.IsChain Lexeme.Apart → (ls ++ [Lexeme.symbol s]).IsChain Lexeme.Apart :=
    fun h => List.isChain_append.2 ⟨h, .singleton _, by simp [Lexeme.Apart]⟩
  induction h with
  | atom a => exact .singleton _
  | group _ ih => exact concat (cons ih)
  | call f _ ih => exact concat (cons (cons ih))
  | bareCall f _ _ ih => exact cons ih
  | negate _ ih => exact cons ih
  | binary op _ _ _ iha ihb =>
    exact List.isChain_append.2 ⟨iha, cons ihb, by simp [Lexeme.Apart]⟩

/-- A written expression is scanned and converted to its tree in post-order. -/
theorem ofTokens_write {bare : Bool} {ls : List Lexeme} {e : Expression Atom} (h : Derives 1 bare ls e) :
    Postfix.ofTokens (tokenize (Lexeme.write ls)) = .ok e.postorder := by
  rw [tokenize, Lexeme.scan_write h.apart, ofTokens_derives h]

end Reckoner
