import Reckoner.Decimal.Basic
import Reckoner.Text.Blank
import Reckoner.Text.Digit
/-!
# Reading numerals

A numeral for a number: blanks around it, a sign, then `inf`, `infinity` or `nan` in any case, or
digits with an optional point and an optional exponent. A numeral for an integer: blanks, a sign,
digits. Digits of any script count, and one underscore may stand between two digits.

`splitDecimal` finds the longest unsigned decimal at the start of a text; reading a whole numeral and
finding a numeral at the start of a display both rest on it.
-/

namespace Reckoner.Numeral

/-- Digits of any script as `0` to `9`, and white space beyond ASCII as a space. -/
def toAscii (c : Char) : Char :=
  if c.toNat < 128 then c
  else if Text.isBlank c then ' '
  else match Text.digit? c with
    | some d => d.digitChar
    | none => c

/-! ## Decimals -/

/-- The digits at the start of a text, and the rest. -/
def splitDigits (isDigit : Char → Bool) (cs : List Char) : List Char × List Char :=
  (cs.takeWhile isDigit, cs.dropWhile isDigit)

/-- An unsigned decimal as it is written: its digits before and after the point, and its exponent. -/
structure Parts where
  whole : List Char
  fraction : List Char
  exponentNegative : Bool
  exponent : List Char

/-- A complete exponent at the start of a text (the mark, an optional sign, at least one digit):
whether it is negative, its digits, and the rest. -/
def splitExponent (isDigit : Char → Bool) : List Char → Option (Bool × List Char × List Char)
  | mark :: cs =>
    if mark = 'e' || mark = 'E' then
      let (negative, cs) := match cs with
        | '-' :: cs => (true, cs)
        | '+' :: cs => (false, cs)
        | cs => (false, cs)
      match splitDigits isDigit cs with
      | ([], _) => none
      | (digits, rest) => some (negative, digits, rest)
    else none
  | [] => none

/-- The digits around an optional point, at least one of them, and the rest. -/
def splitMantissa (isDigit : Char → Bool) (cs : List Char) :
    Option (List Char × List Char × List Char) :=
  match splitDigits isDigit cs with
  | ([], '.' :: rest) =>
    match splitDigits isDigit rest with
    | ([], _) => none
    | (fraction, rest) => some ([], fraction, rest)
  | ([], _) => none
  | (whole, '.' :: rest) => some (whole, splitDigits isDigit rest)
  | (whole, rest) => some (whole, [], rest)

/-- The longest unsigned decimal at the start of a text, and the rest. -/
def splitDecimal (isDigit : Char → Bool) (cs : List Char) : Option (Parts × List Char) :=
  (splitMantissa isDigit cs).map fun (whole, fraction, rest) =>
    match splitExponent isDigit rest with
    | some (negative, digits, rest) => (⟨whole, fraction, negative, digits⟩, rest)
    | none => (⟨whole, fraction, false, []⟩, rest)

/-- The decimal that ASCII parts name. -/
def Parts.decimal (p : Parts) : Decimal :=
  ⟨Nat.ofDigitChars 10 (p.whole ++ p.fraction) 0,
    Double.signed p.exponentNegative (Nat.ofDigitChars 10 p.exponent 0) - p.fraction.length⟩

/-! ## Whole texts -/

/-- Removes underscores; `none` if one does not stand between two digits. -/
def dropUnderscores : (previous : Option Char) → List Char → Option (List Char)
  | _, [] => some []
  | previous, '_' :: cs =>
    if previous.any Char.isDigit && cs.head?.any Char.isDigit then dropUnderscores (some '_') cs
    else none
  | _, c :: cs => (c :: ·) <$> dropUnderscores (some c) cs

def splitSign : List Char → Bool × List Char
  | '-' :: cs => (true, cs)
  | '+' :: cs => (false, cs)
  | cs => (false, cs)

/-- The number that a whole text names. -/
def double? (text : String) : Option Double := do
  let cs ← dropUnderscores none (text.toList.map toAscii)
  let (negative, body) := splitSign (Text.trimmedBy Text.isAsciiBlank cs)
  let word := String.ofList (body.map Char.toLower)
  if word = "inf" || word = "infinity" then return .infinite negative
  if word = "nan" then return .nan
  match splitDecimal Char.isDigit body with
  | some (parts, []) => return parts.decimal.round negative
  | _ => none

/-- Why a text names no integer. -/
inductive IntegerError where
  | malformed
  | tooLong (digits : Nat)
  deriving DecidableEq

/-- No more digits than this are read. -/
def digitLimit : Nat := 4300

/-- The integer that a whole text names. The digits are counted before what follows them is looked
at. -/
def integer? (text : String) : Except IntegerError Int :=
  let cs := Text.trimmedBy Text.isAsciiBlank (text.toList.map toAscii)
  let (negative, body) := splitSign cs
  let numeral := body.takeWhile fun c => c.isDigit || c = '_'
  match dropUnderscores none numeral with
  | none | some [] => throw .malformed
  | some digits =>
    if digitLimit < digits.length then throw (.tooLong digits.length)
    else if numeral.length < body.length then throw .malformed
    else return Double.signed negative (Nat.ofDigitChars 10 digits 0)

end Reckoner.Numeral
