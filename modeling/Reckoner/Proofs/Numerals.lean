import Mathlib.Data.List.TakeWhile
import Reckoner.Display
import Reckoner.EvaluationError
import Reckoner.Proofs.Rounding
/-!
# Numbers read back

A number's text is digits around a point with an exponent behind, laid out from its shortest decimal, and
reading finds those digits again (`splitDecimal_characters`). The layout keeps the value
(`Decimal.exists_parts`), so the text names the number it was written for (`Numeral.double?_render`), and a
display that shows it is read as that number (`Display.read_render`). A display that shows an error has no
numeral at its start and counts as zero (`Display.read_message`).
-/

namespace Reckoner

namespace Text

/-! ## Trimmed texts -/

section
variable {isBlank : Char → Bool}

theorem trimmedBy_eq_self {cs : List Char} (h : ∀ c ∈ cs, isBlank c = false) :
    trimmedBy isBlank cs = cs := by
  have hdrop : ∀ l : List Char, (∀ c ∈ l, isBlank c = false) → l.dropWhile isBlank = l := by
    intro l hl
    rw [List.dropWhile_eq_self_iff]
    intro hpos
    simp [hl _ (List.getElem_mem hpos)]
  rw [trimmedBy, hdrop cs h, hdrop _ (fun c hc => h c (List.mem_reverse.1 hc)), List.reverse_reverse]

theorem not_isAsciiBlank_of_lt {c : Char} (h : 32 < c.toNat) : isAsciiBlank c = false := by
  have hspace : c ≠ ' ' := by
    rintro rfl
    exact absurd h (by decide)
  simp only [isAsciiBlank, Bool.or_eq_false_iff, Bool.and_eq_false_imp, decide_eq_true_eq, decide_eq_false_iff_not]
  exact ⟨by omega, hspace⟩

theorem trimmedBy_append_of_pos {blanks : List Char} (h : ∀ c ∈ blanks, isBlank c)
    (cs : List Char) : trimmedBy isBlank (blanks ++ cs) = trimmedBy isBlank cs := by
  rw [trimmedBy, trimmedBy, List.dropWhile_append_of_pos h]

theorem trimmedBy_cons_of_neg {c : Char} (h : isBlank c = false) (cs : List Char) :
    ∃ tail, trimmedBy isBlank (c :: cs) = c :: tail := by
  rw [trimmedBy, List.dropWhile_cons_of_neg (by simp [h]), List.reverse_cons, List.dropWhile_append]
  split
  · rw [List.dropWhile_cons_of_neg (by simp [h])]
    exact ⟨[], rfl⟩
  · exact ⟨_, by rw [List.reverse_append]; rfl⟩

end

end Text

namespace Numeral

/-! ## Written parts -/

def Parts.exponentCharacters (p : Parts) : List Char :=
  if p.exponent = [] then [] else 'e' :: (if p.exponentNegative then '-' else '+') :: p.exponent

/-- How parts are written: no point without a fraction and no mark without an exponent. -/
def Parts.characters (p : Parts) : List Char :=
  p.whole ++ ((if p.fraction = [] then [] else '.' :: p.fraction) ++ p.exponentCharacters)

/-- Digits throughout, and at least one before the point. -/
structure Parts.Plain (p : Parts) : Prop where
  whole_ne_nil : p.whole ≠ []
  whole : ∀ c ∈ p.whole, c.isDigit
  fraction : ∀ c ∈ p.fraction, c.isDigit
  exponent : ∀ c ∈ p.exponent, c.isDigit
  unsigned : p.exponent = [] → p.exponentNegative = false

/-- Digits behind the point unless there is an exponent, and at least two digits in an exponent. -/
structure Parts.Written (p : Parts) : Prop extends p.Plain where
  point : p.exponent = [] → p.fraction ≠ []
  two : p.exponent ≠ [] → 2 ≤ p.exponent.length

theorem toNat_of_isDigit {c : Char} (h : c.isDigit) : 48 ≤ c.toNat ∧ c.toNat ≤ 57 := by
  simp only [Char.isDigit, Bool.and_eq_true, decide_eq_true_eq, ge_iff_le, UInt32.le_iff_toNat_le] at h
  exact h

/-- What `isDigit` has to do with the characters of numerals. -/
structure Recognises (isDigit : Char → Bool) : Prop where
  digit : ∀ c, c.isDigit → isDigit c
  point : isDigit '.' = false
  mark : isDigit 'e' = false
  capital : isDigit 'E' = false
  plus : isDigit '+' = false
  minus : isDigit '-' = false

theorem recognises_isDigit : Recognises Char.isDigit where
  digit _ h := h
  point := by decide
  mark := by decide
  capital := by decide
  plus := by decide
  minus := by decide

theorem recognises_isDecimalDigit : Recognises Text.isDecimalDigit where
  digit c h := by
    have hcode := toNat_of_isDigit h
    have hrange : 0x30 ≤ c.toNat ∧ c.toNat < 0x30 + 10 := by omega
    simp [Text.isDecimalDigit, Text.digit?, Text.digitZeros, hrange]
  point := by decide
  mark := by decide
  capital := by decide
  plus := by decide
  minus := by decide

variable {isDigit : Char → Bool} {p : Parts}

theorem splitDigits_append {digits rest : List Char} (hdigits : ∀ c ∈ digits, isDigit c)
    (hrest : ∀ c ∈ rest.head?, isDigit c = false) : splitDigits isDigit (digits ++ rest) = (digits, rest) := by
  rw [splitDigits, List.takeWhile_append_of_pos hdigits, List.dropWhile_append_of_pos hdigits]
  cases rest with
  | nil => simp
  | cons c rest => simp [hrest c rfl]

theorem splitDigits_eq_self {digits : List Char} (hdigits : ∀ c ∈ digits, isDigit c) :
    splitDigits isDigit digits = (digits, []) := by
  have happend : splitDigits isDigit (digits ++ []) = (digits, []) := splitDigits_append hdigits (by simp)
  rwa [List.append_nil] at happend

theorem head_exponentCharacters (p : Parts) : ∀ c ∈ p.exponentCharacters.head?, c = 'e' := by
  unfold Parts.exponentCharacters
  split <;> simp

theorem splitExponent_characters (ht : Recognises isDigit) (hp : p.Plain) :
    splitExponent isDigit p.exponentCharacters =
      if p.exponent = [] then none else some (p.exponentNegative, p.exponent, []) := by
  unfold Parts.exponentCharacters
  by_cases hempty : p.exponent = []
  · simp [hempty, splitExponent]
  · have hsplit : splitDigits isDigit p.exponent = (p.exponent, []) :=
      splitDigits_eq_self fun c hc => ht.digit c (hp.exponent c hc)
    cases hsign : p.exponentNegative <;> simp [splitExponent, hempty, hsplit]

theorem splitMantissa_of_point {cs whole rest : List Char} (hne : whole ≠ [])
    (h : splitDigits isDigit cs = (whole, '.' :: rest)) :
    splitMantissa isDigit cs = some (whole, splitDigits isDigit rest) := by
  obtain ⟨c, digits, rfl⟩ := List.exists_cons_of_ne_nil hne
  simp only [splitMantissa, h]

theorem splitMantissa_of_no_point {cs whole rest : List Char} (hne : whole ≠ [])
    (hrest : ∀ c ∈ rest.head?, c ≠ '.') (h : splitDigits isDigit cs = (whole, rest)) :
    splitMantissa isDigit cs = some (whole, [], rest) := by
  obtain ⟨c, digits, rfl⟩ := List.exists_cons_of_ne_nil hne
  cases rest with
  | nil => simp only [splitMantissa, h]
  | cons d rest =>
    have hd : d ≠ '.' := hrest d rfl
    simp [splitMantissa, h, hd]

theorem splitMantissa_characters (ht : Recognises isDigit) (hp : p.Plain) :
    splitMantissa isDigit p.characters = some (p.whole, p.fraction, p.exponentCharacters) := by
  have hwhole : ∀ c ∈ p.whole, isDigit c := fun c hc => ht.digit c (hp.whole c hc)
  have hfraction : ∀ c ∈ p.fraction, isDigit c := fun c hc => ht.digit c (hp.fraction c hc)
  have hexponent : ∀ c ∈ p.exponentCharacters.head?, isDigit c = false := by
    intro c hc
    rw [head_exponentCharacters p c hc, ht.mark]
  unfold Parts.characters
  by_cases hempty : p.fraction = []
  · have hpoint : ∀ c ∈ p.exponentCharacters.head?, c ≠ '.' := by
      intro c hc
      rw [head_exponentCharacters p c hc]
      decide
    rw [hempty, if_pos rfl, List.nil_append]
    exact splitMantissa_of_no_point hp.whole_ne_nil hpoint (splitDigits_append hwhole hexponent)
  · have hpoint : ∀ c ∈ ('.' :: (p.fraction ++ p.exponentCharacters)).head?, isDigit c = false := by
      simp [ht.point]
    rw [if_neg hempty, List.cons_append,
      splitMantissa_of_point hp.whole_ne_nil (splitDigits_append hwhole hpoint), splitDigits_append hfraction hexponent]

theorem splitDecimal_characters (ht : Recognises isDigit) (hp : p.Plain) :
    splitDecimal isDigit p.characters = some (p, []) := by
  rw [splitDecimal, splitMantissa_characters ht hp, Option.map_some]
  dsimp only
  rw [splitExponent_characters ht hp]
  by_cases hempty : p.exponent = []
  · have hself : (⟨p.whole, p.fraction, false, []⟩ : Parts) = p := by rw [← hp.unsigned hempty, ← hempty]
    have hrest : p.exponentCharacters = [] := by simp [Parts.exponentCharacters, hempty]
    simp [hempty, hrest, hself]
  · simp [hempty]

/-! ## Whole texts -/

/-- The characters of written numbers. -/
def IsPlain (c : Char) : Prop := c.isDigit ∨ c = '.' ∨ c = 'e' ∨ c = '-' ∨ c = '+'

theorem toLower_of_lt {c : Char} (h : c.toNat < 65) : c.toLower = c := by
  refine dif_neg fun hupper => ?_
  have hlow : 65 ≤ c.toNat := UInt32.le_iff_toNat_le.1 hupper.1
  omega

theorem toLower_of_isDigit {c : Char} (h : c.isDigit) : c.toLower = c := by
  have hrange := toNat_of_isDigit h
  exact toLower_of_lt (by omega)

theorem IsPlain.toNat {c : Char} (h : IsPlain c) : 43 ≤ c.toNat ∧ c.toNat ≤ 101 ∧ c.toNat ≠ 95 := by
  rcases h with h | rfl | rfl | rfl | rfl
  · have := toNat_of_isDigit h
    omega
  all_goals decide

theorem IsPlain.toAscii {c : Char} (h : IsPlain c) : toAscii c = c := by
  unfold Numeral.toAscii
  rw [if_pos]
  have := h.toNat
  omega

theorem IsPlain.not_isBlank {c : Char} (h : IsPlain c) : Text.isBlank c = false := by
  have := h.toNat
  simp only [Text.isBlank, Bool.or_eq_false_iff, Bool.and_eq_false_imp, decide_eq_true_eq, decide_eq_false_iff_not]
  omega

theorem IsPlain.not_isAsciiBlank {c : Char} (h : IsPlain c) : Text.isAsciiBlank c = false :=
  Text.not_isAsciiBlank_of_lt (by have := h.toNat; omega)

theorem isPlain_of_mem_characters (hp : p.Plain) {c : Char} (hc : c ∈ p.characters) : IsPlain c := by
  simp only [Parts.characters, Parts.exponentCharacters, List.mem_append] at hc
  rcases hc with hc | hc | hc
  · exact .inl (hp.whole c hc)
  · split at hc
    · simp at hc
    · rcases List.mem_cons.1 hc with rfl | hc
      · exact .inr (.inl rfl)
      · exact .inl (hp.fraction c hc)
  · split at hc
    · simp at hc
    · rcases List.mem_cons.1 hc with rfl | hc
      · exact .inr (.inr (.inl rfl))
      rcases List.mem_cons.1 hc with rfl | hc
      · cases p.exponentNegative <;> simp [IsPlain]
      · exact .inl (hp.exponent c hc)

theorem exists_characters (hp : p.Plain) : ∃ c cs, p.characters = c :: cs ∧ c.isDigit := by
  obtain ⟨c, cs, hcs⟩ := List.exists_cons_of_ne_nil hp.whole_ne_nil
  exact ⟨c, _, by rw [Parts.characters, hcs, List.cons_append], hp.whole c (by simp [hcs])⟩

theorem dropUnderscores_eq_some {cs : List Char} (h : '_' ∉ cs) (previous : Option Char) :
    dropUnderscores previous cs = some cs := by
  induction cs generalizing previous with
  | nil => simp [dropUnderscores]
  | cons c cs ih =>
    rw [List.mem_cons, not_or] at h
    obtain ⟨hc, hcs⟩ := h
    rw [dropUnderscores, ih hcs]
    · rfl
    · exact fun h => hc h.symm

/-- A sign is written for what is negative only. -/
def signed (negative : Bool) (cs : List Char) : List Char := if negative then '-' :: cs else cs

/-- Characters of written numbers, the first of them a digit. -/
structure IsUnsigned (cs : List Char) : Prop where
  plain : ∀ c ∈ cs, IsPlain c
  digit : ∃ c rest, cs = c :: rest ∧ c.isDigit

theorem isUnsigned_characters (hp : p.Plain) : IsUnsigned p.characters :=
  ⟨fun _ => isPlain_of_mem_characters hp, exists_characters hp⟩

section
variable {cs : List Char} (hcs : IsUnsigned cs)
include hcs

theorem isPlain_of_mem_signed (negative : Bool) {c : Char} (hc : c ∈ signed negative cs) : IsPlain c := by
  cases negative with
  | false => exact hcs.plain c hc
  | true =>
    rcases List.mem_cons.1 hc with rfl | hc
    · simp [IsPlain]
    · exact hcs.plain c hc

theorem splitSign_signed (negative : Bool) : splitSign (signed negative cs) = (negative, cs) := by
  obtain ⟨c, rest, rfl, hc⟩ := hcs.digit
  have hrange := toNat_of_isDigit hc
  cases negative with
  | true => rfl
  | false =>
    rw [signed, if_neg Bool.false_ne_true]
    unfold splitSign
    split
    case h_1 h => simp [(List.cons.inj h).1] at hc
    case h_2 h => simp [(List.cons.inj h).1] at hc
    case h_3 => rfl

/-- A decimal with a sign in front names the number that it rounds to. -/
theorem double?_of_splitDecimal (hsplit : splitDecimal Char.isDigit cs = some (p, [])) (negative : Bool) :
    double? (String.ofList (signed negative cs)) = some (p.decimal.round negative) := by
  have hascii : (signed negative cs).map toAscii = signed negative cs :=
    (List.map_congr_left fun c hc => (isPlain_of_mem_signed hcs negative hc).toAscii).trans (List.map_id _)
  have hunderscore : '_' ∉ signed negative cs := by
    intro h
    exact absurd (isPlain_of_mem_signed hcs negative h).toNat (by decide)
  have htrim : Text.trimmedBy Text.isAsciiBlank (signed negative cs) = signed negative cs :=
    Text.trimmedBy_eq_self fun c hc => (isPlain_of_mem_signed hcs negative hc).not_isAsciiBlank
  have hword : ∀ word : String, word.toList.head?.any (fun c => !c.isDigit) →
      String.ofList (cs.map Char.toLower) ≠ word := by
    obtain ⟨c, rest, rfl, hc⟩ := hcs.digit
    rintro word hhead rfl
    rw [String.toList_ofList, List.map_cons, List.head?_cons, toLower_of_isDigit hc] at hhead
    simp [hc] at hhead
  unfold double?
  simp only [String.toList_ofList, hascii, dropUnderscores_eq_some hunderscore, htrim, splitSign_signed hcs,
    Option.bind_eq_bind, Option.bind_some, hword "inf" (by decide), hword "infinity" (by decide),
    hword "nan" (by decide), hsplit]
  simp

end

/-- Written parts name the number that their decimal rounds to. -/
theorem double?_signed (hp : p.Plain) (negative : Bool) :
    double? (String.ofList (signed negative p.characters)) = some (p.decimal.round negative) :=
  double?_of_splitDecimal (isUnsigned_characters hp) (splitDecimal_characters recognises_isDigit hp) negative

end Numeral

namespace Decimal

/-! ## Layout -/

theorem exists_trailing_zeros (digits : List Char) : ∃ k : Nat,
    digits = (digits.reverse.dropWhile (· = '0')).reverse ++ List.replicate k '0' := by
  refine ⟨(digits.reverse.takeWhile (· = '0')).length, ?_⟩
  have hzeros : digits.reverse.takeWhile (· = '0') =
      List.replicate (digits.reverse.takeWhile (· = '0')).length '0' :=
    List.eq_replicate_iff.2 ⟨rfl, fun c hc => by simpa using List.mem_takeWhile_imp hc⟩
  have hsplit := congrArg List.reverse (List.takeWhile_append_dropWhile (p := (· = '0')) (l := digits.reverse))
  rw [List.reverse_append, List.reverse_reverse, hzeros, List.reverse_replicate] at hsplit
  exact hsplit.symm

/-- The significant digits give the value once the point stands behind the first of them. -/
theorem significant_value (d : Decimal) : ∃ digits e, d.significant = (digits, e) ∧
    (∀ c ∈ digits, c.isDigit) ∧
    d.value = (Nat.ofDigitChars 10 digits 0 : ℚ) * 10 ^ (e + 1 - digits.length : Int) := by
  obtain ⟨k, hk⟩ := exists_trailing_zeros (Nat.toDigits 10 d.coefficient)
  set digits := ((Nat.toDigits 10 d.coefficient).reverse.dropWhile (· = '0')).reverse
  refine ⟨digits, _, rfl, ?_, ?_⟩
  · intro c hc
    exact Nat.isDigit_of_mem_toDigits (b := 10) (by decide) (by decide) (hk ▸ List.mem_append_left _ hc)
  · have hcoefficient : d.coefficient = 10 ^ k * Nat.ofDigitChars 10 digits 0 := by
      rw [← Nat.ofDigitChars_replicate_zero, ← Nat.ofDigitChars_append, ← hk, Nat.ofDigitChars_ten_toDigits]
    have hlength : (Nat.toDigits 10 d.coefficient).length = digits.length + k := by
      simpa using congrArg List.length hk
    have hexponent : d.exponent + (Nat.toDigits 10 d.coefficient).length - 1 + 1 - digits.length =
        k + d.exponent := by
      rw [hlength]
      push_cast
      ring
    rw [value, hexponent, zpow_add₀ (by norm_num), zpow_natCast]
    conv_lhs => rw [hcoefficient]
    push_cast
    ring

variable {digits : List Char}

theorem isDigit_of_mem_zeros {k : Nat} {c : Char} (h : c ∈ List.replicate k '0') : c.isDigit := by
  rw [List.eq_of_mem_replicate h]
  rfl

theorem written_unscaled {whole fraction : List Char} (hne : whole ≠ []) (hwhole : ∀ c ∈ whole, c.isDigit)
    (hpoint : fraction ≠ []) (hfraction : ∀ c ∈ fraction, c.isDigit) :
    (⟨whole, fraction, false, []⟩ : Numeral.Parts).Written :=
  ⟨⟨hne, hwhole, hfraction, by simp, fun _ => rfl⟩, fun _ => hpoint, fun h => absurd rfl h⟩

theorem value_unscaled (whole fraction : List Char) :
    (⟨whole, fraction, false, []⟩ : Numeral.Parts).decimal.value =
      (Nat.ofDigitChars 10 (whole ++ fraction) 0 : ℚ) * 10 ^ (-fraction.length : Int) := by
  simp [Numeral.Parts.decimal, value, Double.signed]

theorem exists_parts_positional (hne : digits ≠ []) (hdigits : ∀ c ∈ digits, c.isDigit) (e : Int) :
    ∃ p : Numeral.Parts, p.Written ∧ positional true digits e = p.characters ∧
      p.decimal.value = (Nat.ofDigitChars 10 digits 0 : ℚ) * 10 ^ (e + 1 - digits.length : Int) := by
  unfold positional
  by_cases hneg : e < 0
  · refine ⟨⟨['0'], List.replicate (-e - 1).toNat '0' ++ digits, false, []⟩, ?_, ?_, ?_⟩
    · refine written_unscaled (by simp) (by simp) (by simp [hne]) fun c hc => ?_
      rcases List.mem_append.1 hc with hc | hc
      · exact isDigit_of_mem_zeros hc
      · exact hdigits c hc
    · simp [hneg, hne, Numeral.Parts.characters, Numeral.Parts.exponentCharacters]
    · have hzeros : Nat.ofDigitChars 10 (['0'] ++ (List.replicate (-e - 1).toNat '0' ++ digits)) 0 =
          Nat.ofDigitChars 10 digits 0 := by
        simp [Nat.ofDigitChars_cons, Nat.ofDigitChars_append, Nat.ofDigitChars_replicate_zero]
      rw [value_unscaled, hzeros, List.length_append, List.length_replicate]
      congr 2
      omega
  by_cases hwhole : digits.length ≤ (e + 1).toNat
  · refine ⟨⟨digits ++ List.replicate ((e + 1).toNat - digits.length) '0', ['0'], false, []⟩, ?_, ?_, ?_⟩
    · refine written_unscaled (by simp [hne]) (fun c hc => ?_) (by simp) (by simp)
      rcases List.mem_append.1 hc with hc | hc
      · exact hdigits c hc
      · exact isDigit_of_mem_zeros hc
    · simp [hneg, hwhole, Numeral.Parts.characters, Numeral.Parts.exponentCharacters]
    · have hzeros : Nat.ofDigitChars 10
          (digits ++ List.replicate ((e + 1).toNat - digits.length) '0' ++ ['0']) 0 =
          10 * (10 ^ ((e + 1).toNat - digits.length) * Nat.ofDigitChars 10 digits 0) := by
        simp [Nat.ofDigitChars_cons, Nat.ofDigitChars_append, Nat.ofDigitChars_replicate_zero]
      have hexponent : (e + 1 - digits.length : Int) = ((e + 1).toNat - digits.length : Nat) := by omega
      rw [value_unscaled, hzeros, hexponent, zpow_natCast, List.length_singleton]
      push_cast
      rw [zpow_neg_one]
      ring
  · refine ⟨⟨digits.take (e + 1).toNat, digits.drop (e + 1).toNat, false, []⟩, ?_, ?_, ?_⟩
    · refine written_unscaled ?_ (fun c hc => hdigits c (List.mem_of_mem_take hc)) ?_
        (fun c hc => hdigits c (List.mem_of_mem_drop hc))
      · simp only [ne_eq, List.take_eq_nil_iff, hne, or_false]
        omega
      · simpa using hwhole
    · simp [hneg, hwhole, Numeral.Parts.characters, Numeral.Parts.exponentCharacters]
    · rw [value_unscaled, List.take_append_drop, List.length_drop]
      congr 2
      omega

/-- The digits of an exponent, padded or not. -/
theorem exponent_digits {n : Nat} {cs : List Char} (h : cs = '0' :: Nat.toDigits 10 n ∨ cs = Nat.toDigits 10 n) :
    cs ≠ [] ∧ (∀ c ∈ cs, c.isDigit) ∧ Nat.ofDigitChars 10 cs 0 = n := by
  have hdigits : ∀ c ∈ Nat.toDigits 10 n, c.isDigit := fun c hc =>
    Nat.isDigit_of_mem_toDigits (by decide) (by decide) hc
  rcases h with rfl | rfl
  · refine ⟨by simp, ?_, ?_⟩
    · intro c hc
      rcases List.mem_cons.1 hc with rfl | hc
      · rfl
      · exact hdigits c hc
    · simp [Nat.ofDigitChars_cons]
  · exact ⟨Nat.toDigits_ne_nil, hdigits, Nat.ofDigitChars_ten_toDigits⟩

theorem signed_natAbs (e : Int) : Double.signed (e < 0) e.natAbs = e := by
  unfold Double.signed
  by_cases h : e < 0
  · rw [if_pos (decide_eq_true h)]
    omega
  · rw [if_neg (by simpa using h)]
    omega

theorem exists_parts_scientific (hne : digits ≠ []) (hdigits : ∀ c ∈ digits, c.isDigit) (e : Int) :
    ∃ p : Numeral.Parts, p.Written ∧ scientific digits e = p.characters ∧
      p.decimal.value = (Nat.ofDigitChars 10 digits 0 : ℚ) * 10 ^ (e + 1 - digits.length : Int) := by
  unfold scientific
  set exponent := if (Nat.toDigits 10 e.natAbs).length < 2 then '0' :: Nat.toDigits 10 e.natAbs
    else Nat.toDigits 10 e.natAbs with hexponent
  have hcases : exponent = '0' :: Nat.toDigits 10 e.natAbs ∨ exponent = Nat.toDigits 10 e.natAbs := by
    rw [hexponent]
    split <;> simp
  obtain ⟨hexponentNe, hexponentDigits, hexponentValue⟩ := exponent_digits hcases
  have htwo : 2 ≤ exponent.length := by
    have hpos : 0 < (Nat.toDigits 10 e.natAbs).length := List.length_pos_iff.2 Nat.toDigits_ne_nil
    rw [hexponent]
    split
    · rw [List.length_cons]
      omega
    · omega
  refine ⟨⟨digits.take 1, digits.drop 1, e < 0, exponent⟩,
    ⟨⟨?_, ?_, ?_, hexponentDigits, ?_⟩, fun h => absurd h hexponentNe, fun _ => htwo⟩, ?_, ?_⟩
  · simp [hne]
  · exact fun c hc => hdigits c (List.mem_of_mem_take hc)
  · exact fun c hc => hdigits c (List.mem_of_mem_drop hc)
  · exact fun h => absurd h hexponentNe
  · simp only [Numeral.Parts.characters, Numeral.Parts.exponentCharacters, hexponentNe, if_false,
      List.drop_eq_nil_iff, decide_eq_true_eq, List.append_assoc, ← hexponent]
  · have hlength : 0 < digits.length := List.length_pos_iff.2 hne
    simp only [Numeral.Parts.decimal, value, List.take_append_drop, hexponentValue, List.length_drop, signed_natAbs]
    congr 2
    omega

/-- The layout writes parts of the decimal's value. -/
theorem exists_parts (d : Decimal) : ∃ p : Numeral.Parts,
    p.Written ∧ d.layOut full = p.characters ∧ p.decimal.value = d.value := by
  obtain ⟨digits, e, hsignificant, hdigits, hvalue⟩ := significant_value d
  unfold layOut
  rw [hsignificant, hvalue]
  by_cases hne : digits = []
  · refine ⟨⟨['0'], ['0'], false, []⟩, written_unscaled (by simp) (by simp) (by simp) (by simp), ?_, ?_⟩
    · simp [hne, full, Numeral.Parts.characters, Numeral.Parts.exponentCharacters]
    · rw [value_unscaled]
      simp [hne, Nat.ofDigitChars_cons]
  simp only [List.isEmpty_iff, hne, if_false]
  split
  · exact exists_parts_positional hne hdigits e
  · exact exists_parts_scientific hne hdigits e

end Decimal

namespace Numeral

theorem exists_render (negative : Bool) (rank : Fin Double.finiteCount) : ∃ p : Parts, p.Written ∧
    (Double.finite negative rank).render = String.ofList (signed negative p.characters) ∧
    p.decimal.round negative = .finite negative rank := by
  obtain ⟨p, hp, hwritten, hvalue⟩ := (Decimal.shortest rank).exists_parts
  refine ⟨p, hp, ?_, ?_⟩
  · rw [← hwritten]
    rfl
  · rw [Decimal.round_congr hvalue, Decimal.round_shortest rank.isLt]

/-- Every number is read back from its text. -/
theorem double?_render (x : Double) : double? x.render = some x := by
  cases x with
  | nan => rfl
  | infinite negative => cases negative <;> rfl
  | finite negative rank =>
    obtain ⟨p, hp, htext, hround⟩ := exists_render negative rank
    rw [htext, double?_signed hp.toPlain, hround]

end Numeral

/-! ## Displays -/

/-- What a display that shows the number counts as. -/
def Double.settled (x : Double) : Double := if x.isNan || x.isZero then .zero false else x

namespace Display

theorem after?_eq_none {word : String} {cs : List Char} (h : ¬ word.toList <+: cs) : after? word cs = none :=
  if_neg fun hprefix => h (List.isPrefixOf_iff_prefix.1 hprefix)

theorem afterUnsigned?_eq {cs : List Char} (hInfinity : ¬ "Infinity".toList <+: cs) (hinf : ¬ "inf".toList <+: cs) :
    afterUnsigned? cs = (Numeral.splitDecimal Text.isDecimalDigit cs).map (·.2) := by
  unfold afterUnsigned?
  rw [after?_eq_none hInfinity, after?_eq_none hinf]
  rfl

theorem numeral?_signed {p : Numeral.Parts} (hp : p.Plain) (negative : Bool) :
    numeral? (Numeral.signed negative p.characters) = some (Numeral.signed negative p.characters) := by
  have hcs := Numeral.isUnsigned_characters hp
  have hblank : (Numeral.signed negative p.characters).dropWhile Text.isBlank =
      Numeral.signed negative p.characters := by
    rw [List.dropWhile_eq_self_iff]
    intro hpos
    simp [(Numeral.isPlain_of_mem_signed hcs negative (List.getElem_mem hpos)).not_isBlank]
  have hunsigned : afterUnsigned? p.characters = some [] := by
    obtain ⟨c, rest, hp', hc⟩ := hcs.digit
    have hI : 'I' ≠ c := by
      rintro rfl
      exact absurd hc (by decide)
    have hi : 'i' ≠ c := by
      rintro rfl
      exact absurd hc (by decide)
    rw [afterUnsigned?_eq (by simp [hp', hI]) (by simp [hp', hi]),
      Numeral.splitDecimal_characters Numeral.recognises_isDecimalDigit hp]
    rfl
  simp only [numeral?, hblank, Numeral.splitSign_signed hcs, hunsigned, Option.map_some, List.length_nil,
    Nat.sub_zero, List.take_length]

theorem read_render (x : Double) : read x.render = .ok x.settled := by
  cases x with
  | nan => rfl
  | infinite negative => cases negative <;> rfl
  | finite negative rank =>
    obtain ⟨p, hp, htext, hround⟩ := Numeral.exists_render negative rank
    rw [htext, read, String.toList_ofList, numeral?_signed hp.toPlain]
    simp only [Numeral.double?_signed hp.toPlain, hround]
    rfl

theorem numeral?_eq_none {a b c : Char} (rest : List Char)
    (ha : Text.isBlank a = false ∧ a ≠ '-' ∧ a ≠ '+' ∧ a ≠ '.' ∧ Text.isDecimalDigit a = false)
    (hword : [a, b, c] ≠ ['I', 'n', 'f'] ∧ [a, b, c] ≠ ['i', 'n', 'f']) :
    numeral? (a :: b :: c :: rest) = none := by
  obtain ⟨hblank, hminus, hplus, hpoint, hdigit⟩ := ha
  have hsign : Numeral.splitSign (a :: b :: c :: rest) = (false, a :: b :: c :: rest) := by
    unfold Numeral.splitSign
    split
    case h_1 h => exact absurd (List.cons.inj h).1 hminus
    case h_2 h => exact absurd (List.cons.inj h).1 hplus
    case h_3 => rfl
  have hInfinity : ¬ "Infinity".toList <+: a :: b :: c :: rest := by
    intro h
    simp only [String.reduceToList, List.cons_prefix_cons] at h
    obtain ⟨rfl, rfl, rfl, -⟩ := h
    exact hword.1 rfl
  have hinf : ¬ "inf".toList <+: a :: b :: c :: rest := by
    intro h
    simp only [String.reduceToList, List.cons_prefix_cons] at h
    obtain ⟨rfl, rfl, rfl, -⟩ := h
    exact hword.2 rfl
  have hdecimal : Numeral.splitDecimal Text.isDecimalDigit (a :: b :: c :: rest) = none := by
    simp [Numeral.splitDecimal, Numeral.splitMantissa, Numeral.splitDigits, hdigit, hpoint]
  have hdrop : (a :: b :: c :: rest).dropWhile Text.isBlank = a :: b :: c :: rest :=
    List.dropWhile_cons_of_neg (by simp [hblank])
  simp only [numeral?, hdrop, hsign, afterUnsigned?_eq hInfinity hinf, hdecimal, Option.map_none]

end Display

theorem EvaluationError.take_message (e : EvaluationError) : e.message.toList.take 3 ∈
    [['M', 'i', 's'], ['U', 'n', 'k'], ['I', 'n', 's'], ['I', 'n', 'v'], ['E', 'm', 'p'], ['S', 't', 'a']] := by
  cases e with
  | unexpectedClose =>
    change "Mismatched parentheses: unexpected ')'".toList.take 3 ∈ _
    simp
  | unclosedGroup =>
    change "Mismatched parentheses: unclosed '('".toList.take 3 ∈ _
    simp
  | unknownToken name =>
    change ("Unknown token: " ++ name).toList.take 3 ∈ _
    simp
  | missingOperand name =>
    change ("Insufficient operands for " ++ name).toList.take 3 ∈ _
    simp
  | unknownOperator name =>
    change ("Invalid operator: " ++ name).toList.take 3 ∈ _
    simp
  | badFactorial argument =>
    change ("Invalid factorial argument: " ++ argument.renderBrief).toList.take 3 ∈ _
    simp
  | empty =>
    change "Empty expression".toList.take 3 ∈ _
    simp
  | leftover count =>
    change ("Stack has " ++ toString count ++ " elements after evaluation, expected 1").toList.take 3 ∈ _
    simp

/-- No wording of an error starts like a number. -/
theorem Display.read_message (e : EvaluationError) : Display.read e.message = .ok (.zero false) := by
  have hnone : Display.numeral? e.message.toList = none := by
    have hstart := e.take_message
    simp only [List.mem_cons, List.not_mem_nil, or_false] at hstart
    rw [← List.take_append_drop 3 e.message.toList]
    rcases hstart with h | h | h | h | h | h <;> rw [h]
    all_goals exact Display.numeral?_eq_none _ (by decide) (by decide)
  rw [Display.read, hnone]

end Reckoner
