import Reckoner.Operator
import Reckoner.Proofs.Rounding
/-!
# Factorials

A rising product stops as soon as it is infinite. No whole factor brings it back from there
(`infinite_mul_ofNat`), so it comes to the same as multiplying to the end (`risingProduct_eq`), and its products
stop at the same factor however far that end is (`length_risingProducts`). From one on it is the factor 171: as
long as products stay finite they are whole numbers, rounded, and `wholeProduct?` follows them there.
-/

namespace Reckoner.Double

/-- Multiplies `product` by `count` whole numbers from `next` on, each product rounded, to the end. -/
def fullProduct (product : Double) (next count : Nat) : Double :=
  (List.range' next count).foldl (fun product n => product.mul (.ofNat n)) product

section
variable {product : Double} {next count : Nat}

theorem risingProduct_succ :
    risingProduct product next (count + 1) =
      if (product.mul (.ofNat next)).isInfinite then product.mul (.ofNat next)
      else risingProduct (product.mul (.ofNat next)) (next + 1) count := by
  rw [risingProduct, risingProducts, List.getLastD_cons]
  split <;> rfl

theorem fullProduct_succ :
    fullProduct product next (count + 1) = fullProduct (product.mul (.ofNat next)) (next + 1) count := rfl

/-! ## Infinite products -/

/-- A whole number from one on does not round to zero. -/
theorem nearestRank_ne_zero {n : Nat} (hn : 0 < n) : nearestRank n 1 ≠ 0 := by
  have hratio : (2 : ℚ) ^ (0 : Int) ≤ (n : ℚ) / (1 : Nat) := by simpa using Nat.succ_le_of_lt hn
  have hlog : 0 ≤ floorLog2 n 1 := by
    rw [floorLog2_eq hn Nat.one_pos]
    exact (Int.zpow_le_iff_le_log one_lt_two (one_pos.trans_le (by simpa using hratio))).1
      (by exact_mod_cast hratio)
  have hspacing : 1 ≤ (max (floorLog2 n 1 - 52) (-1074) + 1074).toNat := by omega
  have hbinade : 0 < binade := by decide
  have hrank := Nat.mul_pos hspacing hbinade
  simp only [nearestRank, hn.ne', if_false]
  omega

theorem infinite_mul_ofNat (negative : Bool) (hnext : 0 < next) :
    (infinite negative).mul (.ofNat next) = infinite negative := by
  rw [ofNat, ofRatio, ofRank]
  split
  · simp [mul, nearestRank_ne_zero hnext]
  · simp [mul]

/-- Once infinite, a product stays what it is. -/
theorem fullProduct_of_isInfinite (h : product.isInfinite = true) (hnext : 0 < next) (count : Nat) :
    fullProduct product next count = product := by
  cases product with
  | nan | finite => cases h
  | infinite negative =>
    induction count generalizing next with
    | zero => rfl
    | succ count ih => rw [fullProduct_succ, infinite_mul_ofNat negative hnext, ih next.succ_pos]

/-- Stopping at infinity makes no difference. -/
theorem risingProduct_eq (hnext : 0 < next) :
    risingProduct product next count = fullProduct product next count := by
  induction count generalizing product next with
  | zero => rfl
  | succ count ih =>
    rw [risingProduct_succ, fullProduct_succ]
    split
    · next h => rw [fullProduct_of_isInfinite h next.succ_pos]
    · exact ih next.succ_pos

/-- A rising product stops at the factor that makes it infinite. -/
theorem length_risingProducts {last : Nat} (hnext : 0 < next)
    (hfinite : (fullProduct product next last).isInfinite = false)
    (hinfinite : (fullProduct product next (last + 1)).isInfinite = true) (count : Nat) :
    (risingProducts product next count).length = min count (last + 1) := by
  induction count generalizing product next last with
  | zero => simp [risingProducts]
  | succ count ih =>
    rw [risingProducts, List.length_cons]
    cases last with
    | zero =>
      have h : (product.mul (.ofNat next)).isInfinite = true := hinfinite
      simp [h]
    | succ last =>
      rw [fullProduct_succ] at hfinite hinfinite
      have h : (product.mul (.ofNat next)).isInfinite = false := by
        -- an infinite product would stay infinite up to the factor before the last one
        by_contra h
        rw [fullProduct_of_isInfinite (by simpa using h) next.succ_pos] at hfinite
        exact h hfinite
      rw [h, if_neg (by decide), ih next.succ_pos hfinite hinfinite]
      omega

end

/-! ## Whole products -/

/-- The number is `n`, with a plus sign. -/
def IsNatural (x : Double) (n : Nat) : Prop :=
  ∃ rank, x = finite false rank ∧ unitsOfRank rank = n * unitsPerOne

/-- The whole number that is nearest to `n`, if the nearest number is a whole one from zero on. -/
def nearestWhole? (n : Nat) : Option Nat :=
  match (ofNat n).toInt? with
  | some (.ofNat m) => some m
  | _ => none

theorem toInt?_eq_some_iff {x : Double} {n : Int} : x.toInt? = some n ↔ x.units? = some (n * unitsPerOne) := by
  have hone : (0 : Int) < unitsPerOne := by decide
  rw [toInt?, Option.bind_eq_some_iff]
  constructor
  · rintro ⟨u, hu, hwhole⟩
    split at hwhole
    · next hmod =>
      obtain rfl := Option.some.inj hwhole
      rw [hu, Int.fdiv_eq_ediv_of_nonneg _ hone.le, Int.ediv_mul_cancel (Int.dvd_of_emod_eq_zero hmod)]
    · cases hwhole
  · intro h
    refine ⟨_, h, ?_⟩
    rw [if_pos (Int.mul_emod_left n _), Int.mul_fdiv_cancel n hone.ne']

theorem isNatural_ofNat {n m : Nat} (h : nearestWhole? n = some m) : IsNatural (ofNat n) m := by
  unfold nearestWhole? at h
  split at h
  · next k hk =>
    obtain rfl := Option.some.inj h
    have hunits := toInt?_eq_some_iff.1 hk
    rw [ofNat, ofRatio, ofRank] at hunits ⊢
    split at hunits
    · next hrank =>
      have hvalue : (unitsOfRank (nearestRank n 1) : Int) = (k : Int) * unitsPerOne := Option.some.inj hunits
      rw [dif_pos hrank]
      exact ⟨_, rfl, by exact_mod_cast hvalue⟩
    · cases hunits
  · cases h

/-- The product of whole numbers is their product, rounded. -/
theorem IsNatural.mul {x y : Double} {v w : Nat} (hx : x.IsNatural v) (hy : y.IsNatural w) :
    x.mul y = ofNat (v * w) := by
  obtain ⟨a, rfl, ha⟩ := hx
  obtain ⟨b, rfl, hb⟩ := hy
  have hone : 0 < unitsPerOne := by decide
  have hone' : (unitsPerOne : ℚ) ≠ 0 := by exact_mod_cast hone.ne'
  have hratio : ((unitsOfRank a * unitsOfRank b : Nat) : ℚ) / (unitsPerOne * unitsPerOne : Nat) =
      (v * w : Nat) / (1 : Nat) := by
    rw [ha, hb]
    push_cast
    field_simp
  rw [Double.mul, ofNat, ofRatio, ofRatio, nearestRank_congr (Nat.mul_pos hone hone) Nat.one_pos hratio]
  rfl

/-- The product of `v` with whole numbers, each product rounded, as long as it stays whole. -/
def wholeProduct? (v : Nat) (ns : List Nat) : Option Nat := ns.foldlM (fun v n => nearestWhole? (v * n)) v

theorem IsNatural.foldl {ns : List Nat} (hns : ∀ n ∈ ns, nearestWhole? n = some n) {x : Double} {v w : Nat}
    (hx : x.IsNatural v) (h : wholeProduct? v ns = some w) :
    (ns.foldl (fun product n => product.mul (.ofNat n)) x).IsNatural w := by
  induction ns generalizing x v with
  | nil =>
    obtain rfl := Option.some.inj h
    exact hx
  | cons n ns ih =>
    rw [wholeProduct?, List.foldlM_cons, Option.bind_eq_bind, Option.bind_eq_some_iff] at h
    obtain ⟨u, hu, hrest⟩ := h
    have hn := isNatural_ofNat (hns n List.mem_cons_self)
    have hproduct : (x.mul (.ofNat n)).IsNatural u := hx.mul hn ▸ isNatural_ofNat hu
    exact ih (fun m hm => hns m (List.mem_cons_of_mem n hm)) hproduct hrest

/-- The factors are exact, the product up to 170 is finite and the next one is not. -/
theorem exists_wholeProduct :
    (∀ n ∈ List.range' 2 170, nearestWhole? n = some n) ∧
      ∃ w, wholeProduct? 1 (List.range' 2 169) = some w ∧ ofNat (w * 171) = infinite false := by
  refine ⟨by decide +kernel, ?_⟩
  have h : (wholeProduct? 1 (List.range' 2 169)).any (fun w => ofNat (w * 171) = infinite false) = true := by
    decide +kernel
  simpa [Option.any_eq_true] using h

/-- The product of the whole numbers from one on becomes infinite with the factor 171. -/
theorem fullProduct_overflow :
    (fullProduct (.ofNat 1) 2 169).isInfinite = false ∧ fullProduct (.ofNat 1) 2 170 = infinite false := by
  obtain ⟨hexact, w, hw, hoverflow⟩ := exists_wholeProduct
  have hone : IsNatural (.ofNat 1) 1 := isNatural_ofNat (by decide +kernel)
  have hfactors : List.range' 2 170 = List.range' 2 169 ++ [171] := List.range'_concat
  have hproduct : (fullProduct (.ofNat 1) 2 169).IsNatural w :=
    hone.foldl (fun n hn => hexact n (by rw [hfactors]; exact List.mem_append_left _ hn)) hw
  have hlast := hproduct.mul (isNatural_ofNat (hexact 171 (by rw [hfactors]; simp)))
  constructor
  · obtain ⟨rank, hrank, -⟩ := hproduct
    rw [hrank]
    rfl
  · rw [fullProduct, hfactors, List.foldl_append, List.foldl_cons, List.foldl_nil]
    exact hlast.trans hoverflow

/-! ## Factorials -/

/-- The number is a whole one. -/
def IsWhole (x : Double) : Prop := ∃ n : Int, x.units? = some (n * unitsPerOne)

theorem less_zero_iff {x : Double} {u : Int} (h : x.units? = some u) : x.less (zero false) = true ↔ u < 0 := by
  cases x with
  | nan | infinite => cases h
  | finite negative rank =>
    obtain rfl := Option.some.inj h
    have hless : (finite negative rank).less (zero false) = decide (signed negative rank < 0) := rfl
    have hzero : unitsOfRank rank = 0 ↔ rank.val = 0 := units_eq_zero_iff
    rw [hless, decide_eq_true_eq]
    cases negative with
    | false => simp only [signed, Bool.false_eq_true, if_false]; omega
    | true => simp only [signed, if_true]; omega

theorem exists_toInt?_iff {x : Double} :
    (∃ n : Nat, x.toInt? = some n) ↔
      ¬ (x = nan ∨ x.isInfinite = true ∨ x.less (zero false) = true ∨ ¬ x.IsWhole) := by
  have hone : (0 : Int) < unitsPerOne := by decide
  constructor
  · rintro ⟨n, hn⟩ (rfl | hinfinite | hnegative | hwhole)
    · cases hn
    · cases x with
      | nan | finite => cases hinfinite
      | infinite => cases hn
    · have hunits := (less_zero_iff (toInt?_eq_some_iff.1 hn)).1 hnegative
      exact (Int.mul_nonneg (Int.natCast_nonneg n) hone.le).not_gt hunits
    · exact hwhole ⟨n, toInt?_eq_some_iff.1 hn⟩
  · intro h
    push Not at h
    obtain ⟨-, -, hnegative, n, hn⟩ := h
    have hnonneg : 0 ≤ n * unitsPerOne := by simpa [less_zero_iff hn] using hnegative
    obtain ⟨m, rfl⟩ := Int.eq_ofNat_of_zero_le (nonneg_of_mul_nonneg_left hnonneg hone)
    exact ⟨m, toInt?_eq_some_iff.2 hn⟩

theorem factorial_of_toInt? {x : Double} {n : Nat} (h : x.toInt? = some n) :
    x.factorial = .ok (risingProduct (.ofNat 1) 2 (n - 1)) := by
  rw [factorial, h]
  rfl

theorem factorial_of_not_toInt? {x : Double} (h : ¬ ∃ n : Nat, x.toInt? = some n) :
    x.factorial = .error (.badFactorial x) := by
  unfold factorial
  split
  · next n hn => exact absurd ⟨n, hn⟩ h
  · rfl

/-- What is not a number, infinite, negative or not whole has no factorial, and nothing else has none. The factorial
of `n` is the product of all whole numbers up to `n`, each product rounded, and takes 170 multiplications at most. -/
theorem factorial_eq_fullProduct (x : Double) :
    ((∃ e, x.factorial = .error e ∧ e.kind = .invalidArgument) ↔
      x = nan ∨ x.isInfinite = true ∨ x.less (zero false) = true ∨ ¬ x.IsWhole) ∧
    (x.factorial = .error (.badFactorial x) ∨
      ∃ n : Nat, x.units? = some (n * unitsPerOne) ∧
        x.factorial = .ok (fullProduct (.ofNat 1) 2 (n - 1)) ∧
        let products := risingProducts (.ofNat 1) 2 (n - 1)
        x.factorial = .ok (products.getLastD (.ofNat 1)) ∧ products.length = min (n - 1) 170) := by
  rw [← not_iff_not, ← exists_toInt?_iff]
  by_cases h : ∃ n : Nat, x.toInt? = some n
  · obtain ⟨n, hn⟩ := h
    have hfactorial := factorial_of_toInt? hn
    have hoverflow : (fullProduct (.ofNat 1) 2 (169 + 1)).isInfinite = true := by
      rw [fullProduct_overflow.2]
      rfl
    refine ⟨iff_of_true ?_ ⟨n, hn⟩, .inr ⟨n, toInt?_eq_some_iff.1 hn, ?_, ?_, ?_⟩⟩
    · rintro ⟨e, herror, -⟩
      cases hfactorial.symm.trans herror
    · rw [hfactorial, risingProduct_eq two_pos]
    · rw [hfactorial, risingProduct]
    · exact length_risingProducts two_pos fullProduct_overflow.1 hoverflow (n - 1)
  · have herror := factorial_of_not_toInt? h
    exact ⟨iff_of_false (not_not_intro ⟨_, herror, rfl⟩) h, .inl herror⟩

end Reckoner.Double
