import Reckoner.Enclosure.Basic
/-!
# Power series

Fixed-point sums of the series behind the elementary functions, at an argument that is small enough
for each term to be at most half of the one before. A term is off by less than four units, and the
tail after the first term that vanishes by less than two.
-/

namespace Reckoner.Enclosure

/-- Adds up `part k t` for `t`, `next k t`, … up to the first `t` that is zero, and counts. -/
def sumTerms (next part : Nat → Int → Int) : (fuel k : Nat) → (t sum : Int) → Int × Nat
  | 0, k, _, sum => (sum, k)
  | fuel + 1, k, t, sum =>
    if t = 0 then (sum, k) else sumTerms next part fuel (k + 1) (next k t) (sum + part k t)

/-- The sum of a series that starts at `t`, with room for the error of its terms; there are fewer
terms than bits. -/
def series (p : Nat) (t : Int) (next part : Nat → Int → Int) : Enclosure :=
  let (sum, count) := sumTerms next part (2 * p + 64) 0 t 0
  around sum (4 * count + 8)

/-- The product in units of `2 ^ -p`, cut toward zero. -/
def times (p : Nat) (a b : Int) : Int := (a * b).tdiv (one p)

def sinSeries (p : Nat) (x : Int) : Enclosure :=
  let square := times p x x
  series p x (fun k t => -(times p t square).tdiv ((2 * k + 2) * (2 * k + 3))) fun _ t => t

def cosSeries (p : Nat) (x : Int) : Enclosure :=
  let square := times p x x
  series p (one p) (fun k t => -(times p t square).tdiv ((2 * k + 1) * (2 * k + 2))) fun _ t => t

def expSeries (p : Nat) (x : Int) : Enclosure :=
  series p (one p) (fun k t => (times p t x).tdiv (k + 1)) fun _ t => t

def atanSeries (p : Nat) (x : Int) : Enclosure :=
  let square := times p x x
  series p x (fun _ t => -times p t square) fun k t => t.tdiv (2 * k + 1)

def atanhSeries (p : Nat) (x : Int) : Enclosure :=
  let square := times p x x
  series p x (fun _ t => times p t square) fun k t => t.tdiv (2 * k + 1)

/-- The arc tangent of `1 / q`. -/
def atanInverse (p q : Nat) : Enclosure :=
  series p ((one p).tdiv q) (fun _ t => -t.tdiv (q * q)) fun k t => t.tdiv (2 * k + 1)

/-- Half of π, as `8 atan (1/5) - 2 atan (1/239)`. -/
def halfPi (p : Nat) : Enclosure :=
  ((atanInverse p 5).scale 8 1).sub ((atanInverse p 239).scale 2 1)

/-- The logarithm of two, as `2 atanh (1/3)`. -/
def ln2 (p : Nat) : Enclosure :=
  (series p ((one p).tdiv 3) (fun _ t => t.tdiv 9) fun k t => t.tdiv (2 * k + 1)).scale 2 1

end Reckoner.Enclosure
