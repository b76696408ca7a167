import Reckoner.Decimal.Basic
/-!
# The text of a number

`Double.render` writes the fewest digits that read back as the same number, and of those the nearest
to its value, an even last digit at a tie. Whatever is written was read back by `Decimal.round`
before, so reading it back needs no further argument.

`Double.renderBrief` writes at most six significant digits.
-/

namespace Reckoner

namespace Decimal

/-- The one of both multiples of `10 ^ e` around `num / den` that lies nearer, then the other. -/
def neighbours (num den : Nat) (e : Int) : List Decimal :=
  let (n, d) := scaleDown num den e
  let lower := n / d
  let nearest := Double.divNearest n d
  [⟨nearest, e⟩, ⟨if nearest = lower then lower + 1 else lower, e⟩]

/-- The first decimal of at most `count + fuel` digits that reads back as the finite number of that
rank, tried from `count` digits on. -/
def search (rank : Nat) (num den : Nat) (leading : Int) : (fuel count : Nat) → Option Decimal
  | 0, _ => none
  | fuel + 1, count =>
    let found := (neighbours num den (leading + 1 - count)).find? fun d =>
      d.round false = Double.ofRank false rank
    found <|> search rank num den leading fuel (count + 1)

/-- The exact value of a rank: a power of two below one is a power of five over a power of ten. -/
def exact (rank : Nat) : Decimal := ⟨Double.unitsOfRank rank * Nat.pow 5 1074, -1074⟩

/-- The shortest decimal that reads back as the finite number of that rank. -/
def shortest (rank : Nat) : Decimal :=
  if rank = 0 then ⟨0, 0⟩
  else
    let num := Double.unitsOfRank rank
    let den := Double.unitsPerOne
    (search rank num den (leadingExponent num den) 17 1).getD (exact rank)

/-- Positional below `1e16`, and a whole number keeps a point and a zero. -/
def full : Layout := ⟨16, true⟩

/-- Positional below `1e6`, and a whole number has no point. -/
def brief : Layout := ⟨6, false⟩

/-- The fraction to six significant digits, a half to the even digit. -/
def sixDigits (num den : Nat) : Decimal :=
  if num = 0 then ⟨0, 0⟩
  else
    let e := leadingExponent num den - 5
    let (n, d) := scaleDown num den e
    ⟨Double.divNearest n d, e⟩

end Decimal

namespace Double

private def renderBy (text : Nat → List Char) : Double → String
  | nan => "nan"
  | infinite negative => if negative then "-inf" else "inf"
  | finite negative rank =>
    let magnitude := text rank
    String.ofList (if negative then '-' :: magnitude else magnitude)

def render : Double → String := renderBy fun rank => (Decimal.shortest rank).layOut Decimal.full

def renderBrief : Double → String :=
  renderBy fun rank => (Decimal.sixDigits (unitsOfRank rank) unitsPerOne).layOut Decimal.brief

end Double

end Reckoner
