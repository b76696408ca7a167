import Reckoner.Text.Printable
/-!
# Quoted text

Text between quotes with escapes: single quotes, unless the text has a single quote and no double
one; the quote in use and the backslash are escaped, as is everything that is not printable.
-/

namespace Reckoner.Text

/-- At least `width` lower-case hexadecimal digits. -/
def hex (width n : Nat) : List Char :=
  let digits := Nat.toDigits 16 n
  List.replicate (width - digits.length) '0' ++ digits

def escaped (quote c : Char) : List Char :=
  if c = quote || c = '\\' then ['\\', c]
  else if c = '\n' then ['\\', 'n']
  else if c = '\r' then ['\\', 'r']
  else if c = '\t' then ['\\', 't']
  else if isPrintable c then [c]
  else if c.toNat < 0x100 then '\\' :: 'x' :: hex 2 c.toNat
  else if c.toNat < 0x10000 then '\\' :: 'u' :: hex 4 c.toNat
  else '\\' :: 'U' :: hex 8 c.toNat

def quoted (s : String) : String :=
  let cs := s.toList
  let quote := if cs.contains '\'' && !cs.contains '"' then '"' else '\''
  String.ofList (quote :: (cs.flatMap (escaped quote) ++ [quote]))

example : quoted "it's" = "\"it's\"" ∧ quoted "'\"\n" = "'\\'\"\\n'" := by decide +kernel

end Reckoner.Text
