import Mathlib.Data.Int.Log
import Mathlib.Data.Rat.Floor
import Mathlib.Tactic.FieldSimp
import Mathlib.Tactic.Linarith
import Mathlib.Tactic.Ring
import Reckoner.Decimal.Shortest
/-!
# Rounding depends on the value

`Double.nearestRank` works on a numerator and a denominator, but only their quotient matters
(`nearestRank_congr`). So a decimal is rounded by its value alone: writing it with other digits and another
exponent gives the same number (`Decimal.round_congr`), and the two exits of `Decimal.round` that spare the
power of ten agree with rounding.

Every finite number is the rounding of its exact value (`nearestRank_units`), and so of its shortest decimal.
-/

namespace Reckoner

namespace Double

/-! ## Quotients to the nearest integer -/

theorem divNearest_mul_left {k : Nat} (hk : 0 < k) (num den : Nat) :
    divNearest (k * num) (k * den) = divNearest num den := by
  have htwice : 2 * (k * (num % den)) = k * (2 * (num % den)) := by ring
  have hlt : k * (2 * (num % den)) < k * den ↔ 2 * (num % den) < den := Nat.mul_lt_mul_left hk
  have heq : k * (2 * (num % den)) = k * den ↔ 2 * (num % den) = den := Nat.mul_right_inj (by omega)
  simp only [divNearest, Nat.mul_mod_mul_left, Nat.mul_div_mul_left _ _ hk, htwice, hlt, heq]

theorem mul_eq_mul_of_ratio_eq {a b c d : Nat} (hb : 0 < b) (hd : 0 < d) (h : (a : ℚ) / b = c / d) :
    a * d = c * b := by
  have hb' : (b : ℚ) ≠ 0 := by exact_mod_cast hb.ne'
  have hd' : (d : ℚ) ≠ 0 := by exact_mod_cast hd.ne'
  rw [div_eq_div_iff hb' hd'] at h
  exact_mod_cast h

theorem divNearest_congr {a b c d : Nat} (hb : 0 < b) (hd : 0 < d) (h : (a : ℚ) / b = c / d) :
    divNearest a b = divNearest c d := by
  have hcross : d * a = b * c := by rw [Nat.mul_comm d a, Nat.mul_comm b c, mul_eq_mul_of_ratio_eq hb hd h]
  calc divNearest a b = divNearest (d * a) (d * b) := (divNearest_mul_left hd a b).symm
    _ = divNearest (b * c) (b * d) := by rw [hcross, Nat.mul_comm d b]
    _ = divNearest c d := divNearest_mul_left hb c d

theorem le_divNearest {n num den : Nat} (hden : 0 < den) (h : n * den ≤ num) : n ≤ divNearest num den := by
  have hquotient : n ≤ num / den := (Nat.le_div_iff_mul_le hden).2 h
  simp only [divNearest]
  split
  · exact hquotient
  · split <;> omega

/-- Less than a half goes to zero. -/
theorem divNearest_eq_zero {num den : Nat} (h : 2 * num < den) : divNearest num den = 0 := by
  have hmod : num % den = num := Nat.mod_eq_of_lt (by omega)
  have hdiv : num / den = 0 := Nat.div_eq_of_lt (by omega)
  simp [divNearest, hmod, hdiv, h]

theorem divNearest_mul_self (n : Nat) {den : Nat} (h : 0 < den) : divNearest (n * den) den = n := by
  simp [divNearest, Nat.mul_div_cancel n h, h]

/-! ## Powers of two -/

theorem scaleDown_pos {den : Nat} (num : Nat) (hden : 0 < den) (e : Int) : 0 < (scaleDown num den e).2 := by
  cases e with
  | ofNat e => simpa [scaleDown, Nat.shiftLeft_eq] using hden
  | negSucc e => exact hden

theorem scaleDown_ratio (num den : Nat) (e : Int) :
    ((scaleDown num den e).1 : ℚ) / (scaleDown num den e).2 = num / den / 2 ^ e := by
  cases e with
  | ofNat e =>
    simp only [scaleDown, Nat.shiftLeft_eq, Int.ofNat_eq_natCast, zpow_natCast]
    push_cast
    rw [div_div]
  | negSucc e =>
    simp only [scaleDown, Nat.shiftLeft_eq, zpow_negSucc]
    push_cast
    rw [div_inv_eq_mul]
    ring

theorem scaleDown_le_iff {num den : Nat} (hden : 0 < den) (e : Int) :
    (scaleDown num den e).2 ≤ (scaleDown num den e).1 ↔ (2 : ℚ) ^ e ≤ num / den := by
  have hpos : (0 : ℚ) < (scaleDown num den e).2 := by exact_mod_cast scaleDown_pos num hden e
  have htwo : (0 : ℚ) < 2 ^ e := zpow_pos two_pos e
  rw [← one_le_div htwo, ← scaleDown_ratio, one_le_div hpos, Nat.cast_le]

/-- A quotient lies strictly between the powers of two around the difference of the logarithms. -/
theorem log2_bounds {num den : Nat} (hnum : 0 < num) (hden : 0 < den) :
    (2 : ℚ) ^ ((num.log2 : Int) - den.log2 - 1) < num / den ∧
      (num / den : ℚ) < 2 ^ ((num.log2 : Int) - den.log2 + 1) := by
  have hden' : (0 : ℚ) < den := by exact_mod_cast hden
  have hnumLow : (2 : ℚ) ^ num.log2 ≤ num := by exact_mod_cast Nat.log2_self_le hnum.ne'
  have hnumHigh : (num : ℚ) < 2 ^ (num.log2 + 1) := by exact_mod_cast Nat.lt_log2_self
  have hdenLow : (2 : ℚ) ^ den.log2 ≤ den := by exact_mod_cast Nat.log2_self_le hden.ne'
  have hdenHigh : (den : ℚ) < 2 ^ (den.log2 + 1) := by exact_mod_cast Nat.lt_log2_self
  have hlow : (2 : ℚ) ^ ((num.log2 : Int) - den.log2 - 1) = 2 ^ num.log2 / 2 ^ (den.log2 + 1) := by
    rw [← zpow_natCast, ← zpow_natCast, ← zpow_sub₀ two_ne_zero]
    congr 1
    push_cast
    ring
  have hhigh : (2 : ℚ) ^ ((num.log2 : Int) - den.log2 + 1) = 2 ^ (num.log2 + 1) / 2 ^ den.log2 := by
    rw [← zpow_natCast, ← zpow_natCast, ← zpow_sub₀ two_ne_zero]
    congr 1
    push_cast
    ring
  rw [hlow, hhigh, div_lt_div_iff₀ (by positivity) hden', div_lt_div_iff₀ hden' (by positivity)]
  constructor
  · calc (2 : ℚ) ^ num.log2 * den ≤ num * den := by gcongr
      _ < num * 2 ^ (den.log2 + 1) := by gcongr
  · calc (num : ℚ) * 2 ^ den.log2 ≤ num * den := by gcongr
      _ < 2 ^ (num.log2 + 1) * den := by gcongr

theorem floorLog2_eq {num den : Nat} (hnum : 0 < num) (hden : 0 < den) :
    floorLog2 num den = Int.log 2 ((num : ℚ) / den) := by
  have hpos : (0 : ℚ) < num / den := by positivity
  obtain ⟨hlow, hhigh⟩ := log2_bounds hnum hden
  have hge : (num.log2 : Int) - den.log2 - 1 ≤ Int.log 2 ((num : ℚ) / den) :=
    (Int.zpow_le_iff_le_log one_lt_two hpos).1 (by exact_mod_cast hlow.le)
  have hlt : Int.log 2 ((num : ℚ) / den) < (num.log2 : Int) - den.log2 + 1 :=
    (Int.lt_zpow_iff_log_lt one_lt_two hpos).1 (by exact_mod_cast hhigh)
  have hguess : (scaleDown num den (num.log2 - den.log2)).2 ≤ (scaleDown num den (num.log2 - den.log2)).1 ↔
      (num.log2 : Int) - den.log2 ≤ Int.log 2 ((num : ℚ) / den) :=
    (scaleDown_le_iff hden _).trans (by exact_mod_cast Int.zpow_le_iff_le_log one_lt_two hpos)
  simp only [floorLog2]
  split <;> omega

/-! ## The nearest rank -/

theorem nearestRank_congr {num den num' den' : Nat} (hden : 0 < den) (hden' : 0 < den')
    (h : (num : ℚ) / den = num' / den') : nearestRank num den = nearestRank num' den' := by
  have hcross : num * den' = num' * den := mul_eq_mul_of_ratio_eq hden hden' h
  have hzero : num = 0 ↔ num' = 0 := by
    constructor
    · rintro rfl
      simpa [hden.ne'] using hcross.symm
    · rintro rfl
      simpa [hden'.ne'] using hcross
  by_cases hnum : num = 0
  · have hnum' : num' = 0 := hzero.1 hnum
    simp [nearestRank, hnum, hnum']
  · have hnum' : num' ≠ 0 := mt hzero.2 hnum
    have hlog : floorLog2 num den = floorLog2 num' den' := by
      rw [floorLog2_eq (Nat.pos_of_ne_zero hnum) hden, floorLog2_eq (Nat.pos_of_ne_zero hnum') hden', h]
    simp only [nearestRank, hnum, hnum', if_false, hlog]
    congr 1
    exact divNearest_congr (scaleDown_pos _ hden _) (scaleDown_pos _ hden' _) (by
      rw [scaleDown_ratio, scaleDown_ratio, h])

theorem nearestRank_zero (den : Nat) : nearestRank 0 den = 0 := by simp [nearestRank]

/-- From `2 ^ 1024` on nothing is finite. -/
theorem finiteCount_le_nearestRank {num den : Nat} (hden : 0 < den) (h : (2 : ℚ) ^ (1024 : Int) ≤ num / den) :
    finiteCount ≤ nearestRank num den := by
  have hpos : (0 : ℚ) < num / den := lt_of_lt_of_le (zpow_pos two_pos _) h
  have hnum : num ≠ 0 := by
    rintro rfl
    simp at hpos
  have hlog : (1024 : Int) ≤ Int.log 2 ((num : ℚ) / den) :=
    (Int.zpow_le_iff_le_log one_lt_two hpos).1 h
  set log := Int.log 2 ((num : ℚ) / den) with hlogDef
  have hspacing : max (floorLog2 num den - 52) (-1074) = log - 52 := by
    rw [floorLog2_eq (Nat.pos_of_ne_zero hnum) hden]
    omega
  have hscaled : binade * (scaleDown num den (log - 52)).2 ≤ (scaleDown num den (log - 52)).1 := by
    have hsecond : (0 : ℚ) < (scaleDown num den (log - 52)).2 := by exact_mod_cast scaleDown_pos num hden _
    have hratio : (2 : ℚ) ^ (52 : Int) ≤ num / den / 2 ^ (log - 52) := by
      rw [le_div_iff₀ (zpow_pos two_pos _), ← zpow_add₀ two_ne_zero]
      have hself := Int.zpow_log_le_self one_lt_two hpos
      simpa [← hlogDef] using hself
    rw [← scaleDown_ratio, le_div_iff₀ hsecond] at hratio
    exact_mod_cast hratio
  -- 2046 binades lie below this spacing, and the quotient adds another one
  have hquotient := le_divNearest (scaleDown_pos num hden _) hscaled
  have hbinades : 2046 * binade ≤ (log - 52 + 1074).toNat * binade := Nat.mul_le_mul_right _ (by omega)
  simp only [nearestRank, hnum, if_false, hspacing, finiteCount]
  omega

/-- Below half the least positive number everything goes to zero. -/
theorem nearestRank_eq_zero {num den : Nat} (hden : 0 < den) (h : (num : ℚ) / den < 2 ^ (-1075 : Int)) :
    nearestRank num den = 0 := by
  by_cases hnum : num = 0
  · rw [hnum, nearestRank_zero]
  have hpos : (0 : ℚ) < num / den := by positivity
  have hlog : Int.log 2 ((num : ℚ) / den) < -1075 :=
    (Int.lt_zpow_iff_log_lt one_lt_two hpos).1 h
  have hspacing : max (floorLog2 num den - 52) (-1074) = -1074 := by
    rw [floorLog2_eq (Nat.pos_of_ne_zero hnum) hden]
    omega
  have hscaled : 2 * (scaleDown num den (-1074)).1 < (scaleDown num den (-1074)).2 := by
    have hsecond : (0 : ℚ) < (scaleDown num den (-1074)).2 := by exact_mod_cast scaleDown_pos num hden _
    have hratio : (num : ℚ) / den / 2 ^ (-1074 : Int) < 1 / 2 := by
      rw [div_lt_iff₀ (zpow_pos two_pos _)]
      calc (num : ℚ) / den < 2 ^ (-1075 : Int) := h
        _ = 1 / 2 * 2 ^ (-1074 : Int) := by
          rw [one_div, ← zpow_neg_one, ← zpow_add₀ two_ne_zero]
          norm_num
    rw [← scaleDown_ratio, div_lt_div_iff₀ hsecond two_pos] at hratio
    have hnat : (scaleDown num den (-1074)).1 * 2 < 1 * (scaleDown num den (-1074)).2 := by
      exact_mod_cast hratio
    omega
  simp [nearestRank, hnum, hspacing, divNearest_eq_zero hscaled]

theorem ofRank_zero (negative : Bool) : ofRank negative 0 = zero negative := rfl

theorem ofRank_lt {rank : Nat} (h : rank < finiteCount) (negative : Bool) :
    ofRank negative rank = finite negative ⟨rank, h⟩ := dif_pos h

theorem ofRank_ge {rank : Nat} (h : finiteCount ≤ rank) (negative : Bool) :
    ofRank negative rank = infinite negative := dif_neg (by omega)

theorem withSign_ofRank (negative : Bool) (rank : Nat) :
    (ofRank false rank).withSign negative = ofRank negative rank := by
  by_cases h : rank < finiteCount
  · rw [ofRank_lt h, ofRank_lt h, withSign]
  · rw [ofRank_ge (by omega), ofRank_ge (by omega), withSign]

/-! ## Every finite number is its own rounding -/

/-- The rank taken apart: how many binades lie below and the significand. -/
theorem exists_significand (rank : Nat) : ∃ shift significand,
    unitsOfRank rank = significand * 2 ^ shift ∧ rank = shift * binade + significand ∧
      significand < 2 * binade ∧ (shift = 0 ∨ binade ≤ significand) := by
  have hbinade : 0 < binade := by decide
  by_cases hsmall : rank < binade
  · exact ⟨0, rank, by simp [unitsOfRank, hsmall], by simp, by omega, .inl rfl⟩
  · have hquotient : 1 ≤ rank / binade := (Nat.one_le_div_iff hbinade).2 (by omega)
    have hmod : rank % binade < binade := Nat.mod_lt _ hbinade
    have hsum : (rank / binade - 1 + 1) * binade + rank % binade = rank := by
      rw [Nat.sub_add_cancel hquotient, Nat.mul_comm]
      exact Nat.div_add_mod rank binade
    refine ⟨rank / binade - 1, binade + rank % binade, ?_, ?_, by omega, .inr (by omega)⟩
    · simp [unitsOfRank, hsmall, Nat.shiftLeft_eq]
    · rw [Nat.add_mul] at hsum
      omega

theorem units_ratio (shift significand : Nat) :
    ((significand * 2 ^ shift : Nat) : ℚ) / unitsPerOne = significand * 2 ^ ((shift : Int) - 1074) := by
  have hper : (unitsPerOne : ℚ) = 2 ^ (1074 : Int) := by
    simp only [unitsPerOne, Nat.one_shiftLeft, Nat.cast_pow, Nat.cast_ofNat]
    exact (zpow_natCast (2 : ℚ) 1074).symm
  rw [hper, zpow_sub₀ two_ne_zero, zpow_natCast, Nat.cast_mul, Nat.cast_pow, Nat.cast_two, mul_div_assoc]

/-- The spacing of the ranks around a number, from its significand. -/
theorem spacing_eq {shift significand : Nat} (hpos : 0 < significand) (hlt : significand < 2 * binade)
    (hlow : shift = 0 ∨ binade ≤ significand) :
    max (floorLog2 (significand * 2 ^ shift) unitsPerOne - 52) (-1074) = (shift : Int) - 1074 := by
  have hper : 0 < unitsPerOne := by decide
  have hunits : 0 < significand * 2 ^ shift := Nat.mul_pos hpos (Nat.two_pow_pos shift)
  have hratio : (0 : ℚ) < ((significand * 2 ^ shift : Nat) : ℚ) / unitsPerOne :=
    div_pos (Nat.cast_pos.2 hunits) (Nat.cast_pos.2 hper)
  have hscale : (0 : ℚ) < 2 ^ ((shift : Int) - 1074) := zpow_pos two_pos _
  rw [floorLog2_eq hunits hper]
  -- the logarithm is that of the significand moved by the shift; without a shift the least spacing takes over
  have hhigh : Int.log 2 (((significand * 2 ^ shift : Nat) : ℚ) / unitsPerOne) < 53 + ((shift : Int) - 1074) := by
    have hsignificand : (significand : ℚ) < 2 ^ (53 : Int) := by exact_mod_cast hlt
    refine (Int.lt_zpow_iff_log_lt one_lt_two hratio).1 ?_
    rw [units_ratio, Nat.cast_ofNat, zpow_add₀ two_ne_zero]
    exact mul_lt_mul_of_pos_right hsignificand hscale
  rcases hlow with rfl | hlow
  · omega
  · have hsignificand : (2 : ℚ) ^ (52 : Int) ≤ significand := by exact_mod_cast hlow
    have hge : 52 + ((shift : Int) - 1074) ≤ Int.log 2 (((significand * 2 ^ shift : Nat) : ℚ) / unitsPerOne) := by
      refine (Int.zpow_le_iff_le_log one_lt_two hratio).1 ?_
      rw [units_ratio, Nat.cast_ofNat, zpow_add₀ two_ne_zero]
      exact mul_le_mul_of_nonneg_right hsignificand hscale.le
    omega

theorem nearestRank_units (rank : Nat) : nearestRank (unitsOfRank rank) unitsPerOne = rank := by
  obtain ⟨shift, significand, hunits, hrank, hlt, hlow⟩ := exists_significand rank
  have hper : 0 < unitsPerOne := by decide
  rw [hunits]
  by_cases hzero : significand = 0
  · have hbinade : 0 < binade := by decide
    have hshift : shift = 0 := by omega
    rw [hrank, hzero, hshift, Nat.zero_mul, nearestRank_zero, Nat.zero_mul]
  have hdiv : divNearest (scaleDown (significand * 2 ^ shift) unitsPerOne (shift - 1074)).1
      (scaleDown (significand * 2 ^ shift) unitsPerOne (shift - 1074)).2 = significand := by
    rw [divNearest_congr (scaleDown_pos _ hper _) Nat.one_pos (c := significand)]
    · simpa using divNearest_mul_self significand Nat.one_pos
    · have hscale : (0 : ℚ) < 2 ^ ((shift : Int) - 1074) := zpow_pos two_pos _
      rw [scaleDown_ratio, units_ratio, Nat.cast_one, div_one, mul_div_cancel_right₀ _ hscale.ne']
  have hunitsNe : significand * 2 ^ shift ≠ 0 := Nat.mul_ne_zero hzero (Nat.two_pow_pos shift).ne'
  have hshift : ((shift : Int) - 1074 + 1074).toNat = shift := by omega
  simp only [nearestRank, hunitsNe, if_false, spacing_eq (Nat.pos_of_ne_zero hzero) hlt hlow, hdiv, hshift]
  exact hrank.symm

theorem units_eq_zero_iff {rank : Nat} : unitsOfRank rank = 0 ↔ rank = 0 := by
  constructor
  · intro h
    rw [← nearestRank_units rank, h, nearestRank_zero]
  · rintro rfl
    rfl

end Double

namespace Decimal

/-! ## Decimals by their value -/

def value (d : Decimal) : ℚ := d.coefficient * 10 ^ d.exponent

theorem value_nonneg (d : Decimal) : 0 ≤ d.value := mul_nonneg (Nat.cast_nonneg _) (zpow_nonneg (by norm_num) _)

theorem value_eq_zero {d : Decimal} (h : d.coefficient = 0) : d.value = 0 := by simp [value, h]

theorem le_value {d : Decimal} (h : d.coefficient ≠ 0) : (10 : ℚ) ^ d.exponent ≤ d.value := by
  have hone : (1 : ℚ) ≤ d.coefficient := by exact_mod_cast Nat.one_le_iff_ne_zero.2 h
  exact le_mul_of_one_le_left (zpow_nonneg (by norm_num) _) hone

theorem value_lt (d : Decimal) : d.value < 10 ^ (d.coefficient.log2 + 1 + d.exponent : Int) := by
  have hten : (0 : ℚ) < 10 ^ d.exponent := zpow_pos (by norm_num) _
  have hcoefficient : (d.coefficient : ℚ) < 10 ^ (d.coefficient.log2 + 1 : Int) := by
    calc (d.coefficient : ℚ) < 2 ^ (d.coefficient.log2 + 1) := by exact_mod_cast Nat.lt_log2_self
      _ ≤ 10 ^ (d.coefficient.log2 + 1) := by gcongr; norm_num
      _ = 10 ^ (d.coefficient.log2 + 1 : Int) := by rw [← zpow_natCast]; push_cast; rfl
  rw [zpow_add₀ (by norm_num)]
  exact mul_lt_mul_of_pos_right hcoefficient hten

theorem two_pow_le_ten_pow {a b : Nat} (h : 2 ^ a ≤ 10 ^ b) : (2 : ℚ) ^ (a : Int) ≤ 10 ^ (b : Int) := by
  rw [zpow_natCast, zpow_natCast]
  exact_mod_cast h

theorem overflow_le_value {d : Decimal} (h : d.coefficient ≠ 0) (hlarge : 310 ≤ d.exponent) :
    (2 : ℚ) ^ (1024 : Int) ≤ d.value :=
  calc (2 : ℚ) ^ (1024 : Int) ≤ 10 ^ (310 : Int) :=
        two_pow_le_ten_pow (a := 1024) (b := 310) (by decide +kernel)
    _ ≤ 10 ^ d.exponent := zpow_le_zpow_right₀ (by norm_num) hlarge
    _ ≤ d.value := le_value h

theorem value_lt_underflow {d : Decimal} (hsmall : d.exponent < -(d.coefficient.log2 + 331 : Nat)) :
    d.value < 2 ^ (-1075 : Int) := by
  have hpowers : (10 : ℚ) ^ (-331 : Int) ≤ 2 ^ (-1075 : Int) := by
    rw [zpow_neg, zpow_neg]
    exact inv_anti₀ (zpow_pos two_pos _) (two_pow_le_ten_pow (a := 1075) (b := 331) (by decide +kernel))
  calc d.value < 10 ^ (d.coefficient.log2 + 1 + d.exponent : Int) := value_lt d
    _ ≤ 10 ^ (-331 : Int) := zpow_le_zpow_right₀ (by norm_num) (by push_cast at hsmall; omega)
    _ ≤ 2 ^ (-1075 : Int) := hpowers

/-- Rounding a decimal is rounding any fraction of its value, at the exits that spare the power of ten
as well. -/
theorem round_eq_ofRatio {d : Decimal} {num den : Nat} (hden : 0 < den) (h : d.value = num / den)
    (negative : Bool) : d.round negative = .ofRatio negative num den := by
  simp only [round, Double.ofRatio]
  split
  case isTrue hzero =>
    have hrank : Double.nearestRank num den = 0 := Double.nearestRank_eq_zero hden (by
      rw [← h, value_eq_zero hzero]
      exact zpow_pos two_pos _)
    rw [hrank, Double.ofRank_zero]
  case isFalse hzero =>
    split
    case isTrue hlarge =>
      rw [Double.ofRank_ge (Double.finiteCount_le_nearestRank hden (h ▸ overflow_le_value hzero hlarge))]
    case isFalse =>
      split
      case isTrue hsmall =>
        rw [Double.nearestRank_eq_zero hden (h ▸ value_lt_underflow hsmall), Double.ofRank_zero]
      case isFalse =>
        split
        case h_1 e he =>
          rw [Double.nearestRank_congr Nat.one_pos hden]
          rw [← h, value, he]
          simp
        case h_2 e he =>
          have hpower : 0 < Nat.pow 10 (e + 1) := Nat.pow_pos (by decide)
          rw [Double.nearestRank_congr hpower hden]
          rw [← h, value, he, zpow_negSucc]
          simp [div_eq_mul_inv]

theorem exists_ratio (d : Decimal) : ∃ num den : Nat, 0 < den ∧ d.value = num / den := by
  have hnum : ((d.value.num.toNat : Int) : ℚ) = d.value.num := by
    rw [Int.toNat_of_nonneg (Rat.num_nonneg.2 (value_nonneg d))]
  refine ⟨d.value.num.toNat, d.value.den, d.value.den_pos, ?_⟩
  rw [← Int.cast_natCast, hnum, Rat.num_div_den]

/-- Two decimals of the same value name the same number. -/
theorem round_congr {d d' : Decimal} (h : d.value = d'.value) (negative : Bool) :
    d.round negative = d'.round negative := by
  obtain ⟨num, den, hden, hvalue⟩ := exists_ratio d
  rw [round_eq_ofRatio hden hvalue, round_eq_ofRatio hden (h ▸ hvalue)]

theorem withSign_round (d : Decimal) (negative : Bool) : (d.round false).withSign negative = d.round negative := by
  obtain ⟨num, den, hden, hvalue⟩ := exists_ratio d
  rw [round_eq_ofRatio hden hvalue, round_eq_ofRatio hden hvalue, Double.ofRatio, Double.withSign_ofRank,
    Double.ofRatio]

/-! ## The shortest decimal reads back -/

theorem five_pow_mul_ten_zpow (k : Nat) : (5 : ℚ) ^ k * 10 ^ (-k : Int) = ((2 : ℚ) ^ k)⁻¹ := by
  have hten : (10 : ℚ) ^ k = 2 ^ k * 5 ^ k := by rw [← mul_pow]; norm_num
  rw [zpow_neg, zpow_natCast, hten]
  field_simp

theorem round_exact (rank : Nat) (negative : Bool) : (exact rank).round negative = .ofRank negative rank := by
  have hvalue : (exact rank).value = Double.unitsOfRank rank / Double.unitsPerOne := by
    have hpower : (5 : ℚ) ^ 1074 * 10 ^ (-1074 : Int) = ((2 : ℚ) ^ 1074)⁻¹ := five_pow_mul_ten_zpow 1074
    simp only [value, exact, Nat.pow_eq, Nat.cast_mul, Nat.cast_pow, Nat.cast_ofNat, mul_assoc, hpower,
      Double.unitsPerOne, Nat.one_shiftLeft]
    exact (div_eq_mul_inv _ _).symm
  rw [round_eq_ofRatio (by decide) hvalue, Double.ofRatio, Double.nearestRank_units]

theorem round_of_search {rank num den : Nat} {leading : Int} {d : Decimal} (fuel count : Nat)
    (h : search rank num den leading fuel count = some d) : d.round false = .ofRank false rank := by
  induction fuel generalizing count with
  | zero => simp [search] at h
  | succ fuel ih =>
    rw [search, Option.orElse_eq_some] at h
    rcases h with hfound | ⟨-, hlater⟩
    · simpa using List.find?_some hfound
    · exact ih (count + 1) hlater

theorem round_shortest {rank : Nat} (h : rank < Double.finiteCount) (negative : Bool) :
    (shortest rank).round negative = .finite negative ⟨rank, h⟩ := by
  rw [← withSign_round, ← Double.ofRank_lt h, ← Double.withSign_ofRank negative]
  congr 1
  simp only [shortest]
  split
  case isTrue hzero =>
    rw [hzero]
    rfl
  case isFalse =>
    cases hsearch : search rank (Double.unitsOfRank rank) Double.unitsPerOne
        (leadingExponent (Double.unitsOfRank rank) Double.unitsPerOne) 17 1 with
    | none => exact round_exact rank false
    | some d => exact round_of_search 17 1 hsearch

end Decimal

end Reckoner
