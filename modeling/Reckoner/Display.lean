import Reckoner.Argument
/-!
# Reading a display

The number that a display shows is the one that its text starts with: blanks, a sign, then `Infinity`,
`inf` or a decimal. `Display.numeral?` finds that text, the longest there is, and `Display.read` the
number; where there is none the display counts as zero, and so does a zero with a minus sign.
-/

namespace Reckoner.Display

/-- What follows `word` if the text starts with it. -/
def after? (word : String) (cs : List Char) : Option (List Char) :=
  if word.toList.isPrefixOf cs then some (cs.drop word.length) else none

/-- What follows the unsigned numeral at the start of a text. -/
def afterUnsigned? (cs : List Char) : Option (List Char) :=
  after? "Infinity" cs <|> after? "inf" cs <|>
    (Numeral.splitDecimal Text.isDecimalDigit cs).map (·.2)

/-- The numeral that a text starts with, with the blanks and the sign before it. -/
def numeral? (cs : List Char) : Option (List Char) :=
  let body := (Numeral.splitSign (cs.dropWhile Text.isBlank)).2
  (afterUnsigned? body).map fun rest => cs.take (cs.length - rest.length)

/-- The number that a text starts with. -/
def read (display : String) : Except Fault Double :=
  match numeral? display.toList with
  | none => .ok (.zero false)
  | some cs =>
    let numeral := String.ofList cs
    match Numeral.double? numeral with
    | some x => .ok (if x.isZero then .zero false else x)
    | none => .error (.notANumeral numeral)

/-- The number that a caller's display shows: a number is itself, and `nan` counts as zero. -/
def ofDatum (display : Datum) : Except Fault Double :=
  match display.number? with
  | some (.float x) => .ok (if x.isNan then .zero false else x)
  | some (.int n) => Datum.doubleOfInt? n
  | none => do read (← display.text?)

end Reckoner.Display
