import Reckoner.Symbol
import Reckoner.Decimal.Numeral
/-!
# Lexemes

A lexeme is a number literal or a symbol. `Lexeme.scan` reads the lexemes of a text from left to
right, the longest literal or the one symbol that starts at each place, and skips every character
where none starts. Only the digits `0` to `9` make literals.
-/

namespace Reckoner

/-- An unsigned number as it is written: digits, then possibly a point and more digits. -/
structure Literal where
  whole : List Char
  fraction : Option (List Char)
  whole_ne_nil : whole ≠ []
  whole_digits : whole.all Char.isDigit
  fraction_digits : fraction.all (·.all Char.isDigit)
  deriving DecidableEq

namespace Literal

def characters (n : Literal) : List Char :=
  n.whole ++ match n.fraction with
    | none => []
    | some digits => '.' :: digits

def spelling (n : Literal) : String := String.ofList n.characters

/-- The nearest number to what is written. -/
def value (n : Literal) : Double :=
  let digits := n.fraction.getD []
  Decimal.round false ⟨Nat.ofDigitChars 10 (n.whole ++ digits) 0, -digits.length⟩

/-- The longest literal at the start of a text. -/
def first? (cs : List Char) : Option Literal :=
  let whole := cs.takeWhile Char.isDigit
  if h : whole = [] then none
  else
    some {
      whole
      fraction := match cs.dropWhile Char.isDigit with
        | '.' :: rest => some (rest.takeWhile Char.isDigit)
        | _ => none
      whole_ne_nil := h
      whole_digits := List.all_takeWhile
      fraction_digits := by
        split
        · exact List.all_takeWhile
        · rfl }

end Literal

inductive Lexeme where
  | literal (n : Literal)
  | symbol (s : Symbol)
  deriving DecidableEq

namespace Lexeme

def characters : Lexeme → List Char
  | literal n => n.characters
  | symbol s => s.spelling.toList

def spelling (l : Lexeme) : String := String.ofList l.characters

theorem characters_ne_nil (l : Lexeme) : l.characters ≠ [] := by
  cases l with
  | literal n => simp [characters, Literal.characters, n.whole_ne_nil]
  | symbol s =>
    have nonempty : ∀ s ∈ Symbol.all, s.spelling.toList ≠ [] := by decide +kernel
    exact nonempty s s.mem_all

/-- The lexeme at the start of a text. -/
def first? (cs : List Char) : Option Lexeme :=
  (literal <$> Literal.first? cs) <|>
    (symbol <$> Symbol.all.find? fun s => s.spelling.toList.isPrefixOf cs)

/-- The lexemes of a text, what lies between them skipped. -/
def scan (cs : List Char) : List Lexeme :=
  match cs with
  | [] => []
  | c :: rest =>
    match first? (c :: rest) with
    | none => scan rest
    | some l => l :: scan ((c :: rest).drop l.characters.length)
termination_by cs.length
decreasing_by
  · simp
  · have := List.length_pos_iff.2 l.characters_ne_nil
    simp only [List.length_drop, List.length_cons]
    omega

end Lexeme

end Reckoner
