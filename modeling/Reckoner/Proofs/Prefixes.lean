import Reckoner.Proofs.Numerals
/-!
# The numeral at the start of a display

What a numeral on a display is, written down as a grammar (`Display.IsNumeral`), and that the scan finds the longest one
that the text starts with (`Display.numeral?_eq_some_iff`). Each part of the scan takes at least as much as any word of
its part of the grammar that the text starts with (`splitMantissa_append`, `splitDecimal_append`), so no choice it makes
is ever taken back.
-/

namespace Reckoner

/-- The longest prefix of a text with a property. -/
def IsLongestPrefix (property : List Char → Prop) (cs p : List Char) : Prop :=
  property p ∧ p <+: cs ∧ ∀ q, property q → q <+: cs → q <+: p

namespace Numeral

/-! ## The grammar -/

def IsSign (cs : List Char) : Prop := cs = [] ∨ cs = ['+'] ∨ cs = ['-']

section
variable (isDigit : Char → Bool)

/-- Digits, at least one. -/
def IsDigits (ds : List Char) : Prop := ds ≠ [] ∧ ∀ c ∈ ds, isDigit c

/-- Digits with a point behind, between or in front of them, or without one. -/
inductive IsMantissa : List Char → Prop
  | whole {ds : List Char} (h : IsDigits isDigit ds) : IsMantissa ds
  | point {ds fs : List Char} (h : IsDigits isDigit ds) (hfs : ∀ c ∈ fs, isDigit c) : IsMantissa (ds ++ '.' :: fs)
  | fraction {fs : List Char} (h : IsDigits isDigit fs) : IsMantissa ('.' :: fs)

inductive IsExponent : List Char → Prop
  | marked {mark : Char} {sign ds : List Char} (hmark : mark = 'e' ∨ mark = 'E') (hsign : IsSign sign)
      (h : IsDigits isDigit ds) : IsExponent (mark :: (sign ++ ds))

inductive IsDecimal : List Char → Prop
  | unscaled {m : List Char} (h : IsMantissa isDigit m) : IsDecimal m
  | scaled {m e : List Char} (h : IsMantissa isDigit m) (he : IsExponent isDigit e) : IsDecimal (m ++ e)

/-- A number without blanks and without a sign. -/
inductive IsMagnitude : List Char → Prop
  | infinity : IsMagnitude "Infinity".toList
  | inf : IsMagnitude "inf".toList
  | decimal {d : List Char} (h : IsDecimal isDigit d) : IsMagnitude d

end

/-! ## Digits and mantissas -/

section
variable {isDigit : Char → Bool} {cs ds fs rest : List Char}

/-- No mantissa goes on with the text. -/
def EndsMantissa (isDigit : Char → Bool) (cs : List Char) : Prop := ∀ c ∈ cs.head?, isDigit c = false ∧ c ≠ '.'

theorem splitDigits_digits (hds : ∀ c ∈ ds, isDigit c) (rest : List Char) :
    splitDigits isDigit (ds ++ rest) = (ds ++ rest.takeWhile isDigit, rest.dropWhile isDigit) := by
  rw [splitDigits, List.takeWhile_append_of_pos hds, List.dropWhile_append_of_pos hds]

theorem isDigits_takeWhile (h : cs.takeWhile isDigit ≠ []) : IsDigits isDigit (cs.takeWhile isDigit) :=
  ⟨h, fun _ hc => List.mem_takeWhile_imp hc⟩

theorem isDigits_singleton {c : Char} (h : isDigit c) : IsDigits isDigit [c] :=
  ⟨List.cons_ne_nil c [], List.forall_mem_singleton.2 h⟩

theorem EndsMantissa.dropWhile (h : EndsMantissa isDigit cs) : cs.dropWhile isDigit = cs := by
  cases cs with
  | nil => rfl
  | cons c cs => exact List.dropWhile_cons_of_neg (by simp [(h c rfl).1])

theorem splitMantissa_of_fraction (h : splitDigits isDigit cs = ([], '.' :: rest)) :
    splitMantissa isDigit cs =
      if rest.takeWhile isDigit = [] then none else some ([], rest.takeWhile isDigit, rest.dropWhile isDigit) := by
  simp only [splitMantissa, h]
  rw [splitDigits]
  cases rest.takeWhile isDigit <;> simp

theorem splitMantissa_of_none (hpoint : ∀ c ∈ rest.head?, c ≠ '.') (h : splitDigits isDigit cs = ([], rest)) :
    splitMantissa isDigit cs = none := by
  cases rest with
  | nil => simp only [splitMantissa, h]
  | cons c rest =>
    have hc : c ≠ '.' := hpoint c rfl
    simp [splitMantissa, h, hc]

/-- What is taken for a mantissa is one. -/
theorem exists_mantissa {whole fraction : List Char}
    (h : splitMantissa isDigit cs = some (whole, fraction, rest)) : ∃ m, IsMantissa isDigit m ∧ cs = m ++ rest := by
  have hcs : cs = cs.takeWhile isDigit ++ cs.dropWhile isDigit := List.takeWhile_append_dropWhile.symm
  have hsplit : splitDigits isDigit cs = (cs.takeWhile isDigit, cs.dropWhile isDigit) := rfl
  by_cases hpoint : ∃ tail, cs.dropWhile isDigit = '.' :: tail
  · obtain ⟨tail, htail⟩ := hpoint
    have hfraction : tail = tail.takeWhile isDigit ++ tail.dropWhile isDigit := List.takeWhile_append_dropWhile.symm
    rw [htail] at hcs hsplit
    by_cases hwhole : cs.takeWhile isDigit = []
    · rw [hwhole] at hcs hsplit
      rw [splitMantissa_of_fraction hsplit] at h
      split at h
      · cases h
      · next hne =>
        cases h
        exact ⟨_, .fraction (isDigits_takeWhile hne), by rw [List.cons_append, ← hfraction]; exact hcs⟩
    · rw [splitMantissa_of_point hwhole hsplit] at h
      cases h
      refine ⟨cs.takeWhile isDigit ++ '.' :: tail.takeWhile isDigit,
        .point (isDigits_takeWhile hwhole) (fun _ hc => List.mem_takeWhile_imp hc), ?_⟩
      rw [List.append_assoc, List.cons_append, ← hfraction]
      exact hcs
  · have hhead : ∀ c ∈ (cs.dropWhile isDigit).head?, c ≠ '.' := by
      rintro c hc rfl
      obtain ⟨tail, htail⟩ := List.head?_eq_some_iff.1 hc
      exact hpoint ⟨tail, htail⟩
    by_cases hwhole : cs.takeWhile isDigit = []
    · rw [hwhole] at hsplit
      rw [splitMantissa_of_none hhead hsplit] at h
      cases h
    · rw [splitMantissa_of_no_point hwhole hhead hsplit] at h
      cases h
      exact ⟨_, .whole (isDigits_takeWhile hwhole), hcs⟩

/-- A mantissa at the start of a text is taken, and possibly more; exactly it, where none goes on. -/
theorem splitMantissa_append (ht : Recognises isDigit) {m : List Char} (hm : IsMantissa isDigit m)
    (rest : List Char) : ∃ whole fraction rest', splitMantissa isDigit (m ++ rest) = some (whole, fraction, rest') ∧
      rest' <:+ rest ∧ (EndsMantissa isDigit rest → rest' = rest) := by
  cases hm with
  | whole h =>
    have hsplit := splitDigits_digits h.2 rest
    have hne : m ++ rest.takeWhile isDigit ≠ [] := by simp [h.1]
    cases hafter : rest.dropWhile isDigit with
    | nil =>
      rw [hafter] at hsplit
      refine ⟨_, _, _, splitMantissa_of_no_point hne (by simp) hsplit, List.nil_suffix, fun hends => ?_⟩
      rw [← hafter, hends.dropWhile]
    | cons c after =>
      have hsuffix : c :: after <:+ rest := hafter ▸ List.dropWhile_suffix _
      rw [hafter] at hsplit
      by_cases hc : c = '.'
      · subst hc
        refine ⟨_, _, _, splitMantissa_of_point hne hsplit,
          (List.dropWhile_suffix _).trans ((List.suffix_cons _ _).trans hsuffix), fun hends => ?_⟩
        rw [hends.dropWhile] at hafter
        exact absurd rfl (hends '.' (by rw [hafter]; rfl)).2
      · refine ⟨_, _, _, splitMantissa_of_no_point hne (by simpa using hc) hsplit, hsuffix, fun hends => ?_⟩
        rw [← hafter, hends.dropWhile]
  | @point ds fs h hfs =>
    have hsplit : splitDigits isDigit (ds ++ '.' :: fs ++ rest) = (ds, '.' :: (fs ++ rest)) := by
      rw [List.append_assoc, List.cons_append]
      exact splitDigits_append h.2 (by simp [ht.point])
    refine ⟨ds, fs ++ rest.takeWhile isDigit, rest.dropWhile isDigit, ?_, List.dropWhile_suffix _,
      fun hends => hends.dropWhile⟩
    rw [splitMantissa_of_point h.1 hsplit, splitDigits_digits hfs]
  | @fraction fs h =>
    have hnone : ∀ c ∈ ([] : List Char), isDigit c := by simp
    have hsplit : splitDigits isDigit ('.' :: fs ++ rest) = ([], '.' :: (fs ++ rest)) :=
      splitDigits_append hnone (by simp [ht.point])
    refine ⟨[], fs ++ rest.takeWhile isDigit, rest.dropWhile isDigit, ?_, List.dropWhile_suffix _,
      fun hends => hends.dropWhile⟩
    rw [splitMantissa_of_fraction hsplit, List.takeWhile_append_of_pos h.2, List.dropWhile_append_of_pos h.2,
      if_neg (by simp [h.1])]

/-! ## Signs and exponents -/

theorem exists_sign (cs : List Char) : ∃ sign, IsSign sign ∧ cs = sign ++ (splitSign cs).2 := by
  unfold splitSign
  split
  · exact ⟨['-'], .inr (.inr rfl), rfl⟩
  · exact ⟨['+'], .inr (.inl rfl), rfl⟩
  · exact ⟨[], .inl rfl, rfl⟩

theorem splitSign_append {sign : List Char} (hsign : IsSign sign) (hrest : ∀ c ∈ rest.head?, c ≠ '+' ∧ c ≠ '-') :
    (splitSign (sign ++ rest)).2 = rest := by
  rcases hsign with rfl | rfl | rfl
  · rw [List.nil_append]
    unfold splitSign
    split
    · exact absurd rfl (hrest _ rfl).2
    · exact absurd rfl (hrest _ rfl).1
    · rfl
  · rfl
  · rfl

theorem splitExponent_cons (mark : Char) (cs : List Char) : splitExponent isDigit (mark :: cs) =
    if mark = 'e' ∨ mark = 'E' then
      if (splitSign cs).2.takeWhile isDigit = [] then none
      else some ((splitSign cs).1, (splitSign cs).2.takeWhile isDigit, (splitSign cs).2.dropWhile isDigit)
    else none := by
  unfold splitExponent splitSign splitDigits
  simp only [Bool.or_eq_true, decide_eq_true_eq]
  congr 1
  split
  · next hnone => rw [if_pos (Prod.mk.inj hnone).1]
  · next digits rest hne hsplit =>
    obtain ⟨rfl, rfl⟩ := Prod.mk.inj hsplit
    rw [if_neg hne]

theorem exists_exponent {negative : Bool} (h : splitExponent isDigit cs = some (negative, ds, rest)) :
    ∃ e, IsExponent isDigit e ∧ cs = e ++ rest := by
  cases cs with
  | nil => cases h
  | cons mark cs =>
    rw [splitExponent_cons] at h
    split at h
    · next hmark =>
      split at h
      · cases h
      · next hne =>
        cases h
        obtain ⟨sign, hsign, hcs⟩ := exists_sign cs
        refine ⟨_, .marked hmark hsign (isDigits_takeWhile hne), ?_⟩
        rw [List.cons_append, List.append_assoc, List.takeWhile_append_dropWhile, ← hcs]
    · cases h

theorem splitExponent_append (ht : Recognises isDigit) {e : List Char} (he : IsExponent isDigit e)
    (rest : List Char) :
    ∃ negative ds, splitExponent isDigit (e ++ rest) = some (negative, ds, rest.dropWhile isDigit) := by
  obtain @⟨mark, sign, ds, hmark, hsign, hne, hds⟩ := he
  have hhead : ∀ c ∈ (ds ++ rest).head?, c ≠ '+' ∧ c ≠ '-' := by
    obtain ⟨d, ds, rfl⟩ := List.exists_cons_of_ne_nil hne
    rintro c hc
    obtain rfl : d = c := Option.some.inj hc
    have hd := hds d List.mem_cons_self
    constructor
    · rintro rfl
      simp [ht.plus] at hd
    · rintro rfl
      simp [ht.minus] at hd
  have hbody : (splitSign (sign ++ ds ++ rest)).2 = ds ++ rest := by
    rw [List.append_assoc]
    exact splitSign_append hsign hhead
  rw [List.cons_append, splitExponent_cons, if_pos hmark, hbody, List.takeWhile_append_of_pos hds,
    List.dropWhile_append_of_pos hds, if_neg (by simp [hne])]
  exact ⟨_, _, rfl⟩

theorem not_isExponent_of_prefix (ht : Recognises isDigit) (h : splitExponent isDigit rest = none) :
    ∀ e, IsExponent isDigit e → ¬ e <+: rest := by
  rintro e he ⟨tail, rfl⟩
  obtain ⟨negative, ds, hsplit⟩ := splitExponent_append ht he tail
  rw [h] at hsplit
  cases hsplit

theorem IsExponent.endsMantissa (ht : Recognises isDigit) {e : List Char} (he : IsExponent isDigit e)
    (rest : List Char) : EndsMantissa isDigit (e ++ rest) := by
  obtain ⟨hmark, hsign, h⟩ := he
  intro c hc
  obtain rfl := Option.some.inj hc
  rcases hmark with rfl | rfl
  · exact ⟨ht.mark, by decide⟩
  · exact ⟨ht.capital, by decide⟩

/-! ## Decimals -/

theorem splitDecimal_eq {whole fraction : List Char} (h : splitMantissa isDigit cs = some (whole, fraction, rest)) :
    (splitDecimal isDigit cs).map (·.2) = some (((splitExponent isDigit rest).map (·.2.2)).getD rest) := by
  rw [splitDecimal, h]
  cases hexponent : splitExponent isDigit rest with
  | none => simp [hexponent]
  | some => simp [hexponent]

theorem exists_decimal (h : (splitDecimal isDigit cs).map (·.2) = some rest) :
    ∃ d, IsDecimal isDigit d ∧ cs = d ++ rest := by
  cases hmantissa : splitMantissa isDigit cs with
  | none => simp [splitDecimal, hmantissa] at h
  | some parts =>
    obtain ⟨whole, fraction, after⟩ := parts
    obtain ⟨m, hm, rfl⟩ := exists_mantissa hmantissa
    rw [splitDecimal_eq hmantissa] at h
    cases hexponent : splitExponent isDigit after with
    | none =>
      rw [hexponent] at h
      cases h
      exact ⟨m, .unscaled hm, rfl⟩
    | some exponent =>
      obtain ⟨negative, ds, after'⟩ := exponent
      obtain ⟨e, he, rfl⟩ := exists_exponent hexponent
      rw [hexponent] at h
      cases h
      exact ⟨m ++ e, .scaled hm he, (List.append_assoc _ _ _).symm⟩

/-- A decimal at the start of a text is taken, and possibly more. -/
theorem splitDecimal_append (ht : Recognises isDigit) {d : List Char} (hd : IsDecimal isDigit d)
    (rest : List Char) : ∃ rest', (splitDecimal isDigit (d ++ rest)).map (·.2) = some rest' ∧ rest' <:+ rest := by
  cases hd with
  | unscaled hm =>
    obtain ⟨whole, fraction, after, hmantissa, hsuffix, -⟩ := splitMantissa_append ht hm rest
    refine ⟨_, splitDecimal_eq hmantissa, ?_⟩
    cases hexponent : splitExponent isDigit after with
    | none => exact hsuffix
    | some exponent =>
      obtain ⟨negative, ds, after'⟩ := exponent
      obtain ⟨e, -, rfl⟩ := exists_exponent hexponent
      exact (List.suffix_append e after').trans hsuffix
  | @scaled m e hm he =>
    obtain ⟨whole, fraction, after, hmantissa, -, hexact⟩ := splitMantissa_append ht hm (e ++ rest)
    obtain ⟨negative, ds, hexponent⟩ := splitExponent_append ht he rest
    rw [hexact (he.endsMantissa ht rest), ← List.append_assoc] at hmantissa
    refine ⟨_, splitDecimal_eq hmantissa, ?_⟩
    rw [hexponent]
    exact List.dropWhile_suffix _

/-- What starts no exponent is left over behind a mantissa. -/
theorem splitDecimal_mantissa (ht : Recognises isDigit) {m : List Char} (hm : IsMantissa isDigit m)
    (hends : EndsMantissa isDigit rest) (hexponent : ∀ e, IsExponent isDigit e → ¬ e <+: rest) :
    (splitDecimal isDigit (m ++ rest)).map (·.2) = some rest := by
  obtain ⟨whole, fraction, after, hmantissa, -, hexact⟩ := splitMantissa_append ht hm rest
  obtain rfl := hexact hends
  have hnone : splitExponent isDigit after = none := by
    cases h : splitExponent isDigit after with
    | none => rfl
    | some exponent =>
      obtain ⟨negative, ds, rest⟩ := exponent
      obtain ⟨e, he, rfl⟩ := exists_exponent h
      exact absurd (List.prefix_append e rest) (hexponent e he)
  rw [splitDecimal_eq hmantissa, hnone]
  rfl

theorem IsMantissa.head {m : List Char} (h : IsMantissa isDigit m) :
    ∃ c cs, m = c :: cs ∧ (isDigit c ∨ c = '.') := by
  cases h with
  | whole h =>
    obtain ⟨c, cs, rfl⟩ := List.exists_cons_of_ne_nil h.1
    exact ⟨c, cs, rfl, .inl (h.2 c List.mem_cons_self)⟩
  | @point ds fs h hfs =>
    obtain ⟨c, cs, rfl⟩ := List.exists_cons_of_ne_nil h.1
    exact ⟨c, cs ++ '.' :: fs, rfl, .inl (h.2 c List.mem_cons_self)⟩
  | fraction => exact ⟨'.', _, rfl, .inr rfl⟩

theorem IsDecimal.head {d : List Char} (h : IsDecimal isDigit d) : ∃ c cs, d = c :: cs ∧ (isDigit c ∨ c = '.') := by
  cases h with
  | unscaled hm => exact hm.head
  | @scaled m e hm he =>
    obtain ⟨c, cs, rfl, hc⟩ := hm.head
    exact ⟨c, cs ++ e, rfl, hc⟩

theorem IsMagnitude.head {u : List Char} (h : IsMagnitude isDigit u) :
    ∃ c cs, u = c :: cs ∧ (isDigit c ∨ c = '.' ∨ c = 'I' ∨ c = 'i') := by
  cases h with
  | infinity => exact ⟨'I', "nfinity".toList, rfl, by simp⟩
  | inf => exact ⟨'i', "nf".toList, rfl, by simp⟩
  | decimal h =>
    obtain ⟨c, cs, rfl, hc⟩ := h.head
    exact ⟨c, cs, rfl, hc.imp_right .inl⟩

theorem splitSign_magnitude (ht : Recognises isDigit) {sign u : List Char} (hsign : IsSign sign)
    (hu : IsMagnitude isDigit u) (rest : List Char) : (splitSign (sign ++ (u ++ rest))).2 = u ++ rest := by
  refine splitSign_append hsign ?_
  obtain ⟨d, cs, rfl, hd⟩ := hu.head
  rintro c hc
  obtain rfl : d = c := Option.some.inj hc
  constructor
  · rintro rfl
    simp [ht.plus] at hd
  · rintro rfl
    simp [ht.minus] at hd

end

end Numeral

namespace Text

theorem exists_zero {c : Char} (h : isDecimalDigit c) :
    ∃ z ∈ digitZeros, z ≤ c.toNat ∧ c.toNat < z + 10 ∧ digit? c = some (c.toNat - z) := by
  unfold isDecimalDigit digit? at h
  cases hz : digitZeros.find? fun z => z ≤ c.toNat && c.toNat < z + 10 with
  | none => simp [hz] at h
  | some z =>
    have hrange := List.find?_some hz
    simp only [Bool.and_eq_true, decide_eq_true_eq] at hrange
    exact ⟨z, List.mem_of_find?_eq_some hz, hrange.1, hrange.2, by simp [digit?, hz]⟩

/-- The digits lie between the ranges of the blanks. -/
theorem digitZeros_between : ∀ z ∈ digitZeros, z = 0x30 ∨ 0x660 ≤ z ∧ z + 10 ≤ 0x1680 ∨
    0x1681 ≤ z ∧ z + 10 ≤ 0x2000 ∨ 0x3001 ≤ z := by
  decide

theorem not_isBlank_of_isDecimalDigit {c : Char} (h : isDecimalDigit c) : isBlank c = false := by
  obtain ⟨z, hz, hlow, hhigh, -⟩ := exists_zero h
  have := digitZeros_between z hz
  rw [← Bool.not_eq_true]
  simp only [isBlank, Bool.or_eq_true, Bool.and_eq_true, decide_eq_true_eq]
  omega

end Text

namespace Display

open Numeral

/-! ## Numerals on a display -/

/-- Blanks, a sign and a number, in digits of any script. -/
inductive IsNumeral : List Char → Prop
  | parts {blanks sign magnitude : List Char} (hblanks : ∀ c ∈ blanks, Text.isBlank c) (hsign : IsSign sign)
      (h : IsMagnitude Text.isDecimalDigit magnitude) : IsNumeral (blanks ++ (sign ++ magnitude))

theorem after?_append (word : String) (rest : List Char) : after? word (word.toList ++ rest) = some rest := by
  rw [after?, if_pos (List.isPrefixOf_iff_prefix.2 (List.prefix_append _ _)), ← String.length_toList, List.drop_left]

theorem eq_append_of_after? {word : String} {cs rest : List Char} (h : after? word cs = some rest) :
    cs = word.toList ++ rest := by
  unfold after? at h
  split at h
  · next hprefix =>
    obtain ⟨tail, rfl⟩ := List.isPrefixOf_iff_prefix.1 hprefix
    cases h
    rw [← String.length_toList, List.drop_left]
  · cases h

theorem exists_magnitude {cs rest : List Char} (h : afterUnsigned? cs = some rest) :
    ∃ u, IsMagnitude Text.isDecimalDigit u ∧ cs = u ++ rest := by
  unfold afterUnsigned? at h
  cases hInfinity : after? "Infinity" cs with
  | some after =>
    rw [hInfinity] at h
    cases h
    exact ⟨_, .infinity, eq_append_of_after? hInfinity⟩
  | none =>
    cases hinf : after? "inf" cs with
    | some after =>
      rw [hInfinity, hinf] at h
      cases h
      exact ⟨_, .inf, eq_append_of_after? hinf⟩
    | none =>
      rw [hInfinity, hinf] at h
      obtain ⟨d, hd, hcs⟩ := exists_decimal h
      exact ⟨d, .decimal hd, hcs⟩

theorem afterUnsigned?_decimal {d : List Char} (hd : IsDecimal Text.isDecimalDigit d) (rest : List Char) :
    afterUnsigned? (d ++ rest) = (splitDecimal Text.isDecimalDigit (d ++ rest)).map (·.2) := by
  have hword : ∀ (c : Char) (word : List Char), Text.isDecimalDigit c = false → c ≠ '.' →
      ¬ c :: word <+: d ++ rest := by
    obtain ⟨a, cs, rfl, ha⟩ := hd.head
    intro c word hc hpoint hprefix
    obtain rfl : c = a := (List.cons_prefix_cons.1 hprefix).1
    rcases ha with ha | ha
    · exact absurd ha (by simp [hc])
    · exact hpoint ha
  exact afterUnsigned?_eq (hword 'I' "nfinity".toList (by decide) (by decide))
    (hword 'i' "nf".toList (by decide) (by decide))

/-- A number at the start of a text is taken, and possibly more. -/
theorem afterUnsigned?_append {u : List Char} (hu : IsMagnitude Text.isDecimalDigit u) (rest : List Char) :
    ∃ rest', afterUnsigned? (u ++ rest) = some rest' ∧ rest' <:+ rest := by
  cases hu with
  | infinity =>
    refine ⟨rest, ?_, List.suffix_rfl⟩
    rw [afterUnsigned?, after?_append]
    rfl
  | inf =>
    refine ⟨rest, ?_, List.suffix_rfl⟩
    rw [afterUnsigned?, after?_append, after?_eq_none (by simp)]
    rfl
  | decimal hd =>
    rw [afterUnsigned?_decimal hd]
    exact splitDecimal_append recognises_isDecimalDigit hd rest

theorem take_length_sub (p rest : List Char) : (p ++ rest).take ((p ++ rest).length - rest.length) = p := by
  simp

/-- What is taken for a numeral is one. -/
theorem isNumeral_of_numeral? {cs p : List Char} (h : numeral? cs = some p) : IsNumeral p ∧ p <+: cs := by
  rw [numeral?, Option.map_eq_some_iff] at h
  obtain ⟨rest, hrest, rfl⟩ := h
  obtain ⟨u, hu, hbody⟩ := exists_magnitude hrest
  obtain ⟨sign, hsign, hsigned⟩ := exists_sign (cs.dropWhile Text.isBlank)
  have hcs : cs = cs.takeWhile Text.isBlank ++ (sign ++ u) ++ rest := by
    rw [List.append_assoc, List.append_assoc, ← hbody, ← hsigned, List.takeWhile_append_dropWhile]
  have htake : cs.take (cs.length - rest.length) = cs.takeWhile Text.isBlank ++ (sign ++ u) := by
    conv_lhs => rw [hcs]
    exact take_length_sub _ _
  rw [htake]
  exact ⟨.parts (fun _ hc => List.mem_takeWhile_imp hc) hsign hu, rest, hcs.symm⟩

/-- Blanks and a sign are passed, and what is taken of the number behind them decides. -/
theorem numeral?_parts {blanks sign u taken rest : List Char} (hblanks : ∀ c ∈ blanks, Text.isBlank c)
    (hsign : IsSign sign) (hu : IsMagnitude Text.isDecimalDigit u)
    (hafter : afterUnsigned? (u ++ (taken ++ rest)) = some rest) :
    numeral? (blanks ++ (sign ++ u) ++ (taken ++ rest)) = some (blanks ++ (sign ++ u) ++ taken) := by
  have hstop : (sign ++ (u ++ (taken ++ rest))).dropWhile Text.isBlank = sign ++ (u ++ (taken ++ rest)) := by
    rcases hsign with rfl | rfl | rfl
    · obtain ⟨c, cs, rfl, hc⟩ := hu.head
      have hblank : Text.isBlank c = false := by
        rcases hc with hc | rfl | rfl | rfl
        · exact Text.not_isBlank_of_isDecimalDigit hc
        all_goals decide
      exact List.dropWhile_cons_of_neg (by simp [hblank])
    all_goals exact List.dropWhile_cons_of_neg (by decide)
  have hbody := splitSign_magnitude recognises_isDecimalDigit hsign hu (taken ++ rest)
  rw [numeral?]
  simp only [List.append_assoc]
  rw [List.dropWhile_append_of_pos hblanks, hstop, hbody, hafter]
  simp only [Option.map_some, ← List.append_assoc]
  rw [take_length_sub]

/-- A numeral at the start of a text is taken, and possibly more. -/
theorem numeral?_append {q : List Char} (hq : IsNumeral q) (rest : List Char) :
    ∃ p, numeral? (q ++ rest) = some p ∧ q <+: p := by
  obtain ⟨hblanks, hsign, hu⟩ := hq
  obtain ⟨left, hafter, taken, rfl⟩ := afterUnsigned?_append hu rest
  exact ⟨_, numeral?_parts hblanks hsign hu hafter, List.prefix_append _ _⟩

theorem numeral?_eq_some_iff {cs p : List Char} : numeral? cs = some p ↔ IsLongestPrefix IsNumeral cs p := by
  constructor
  · intro h
    obtain ⟨hp, hprefix⟩ := isNumeral_of_numeral? h
    refine ⟨hp, hprefix, ?_⟩
    rintro q hq ⟨rest, rfl⟩
    obtain ⟨p', hp', hqp⟩ := numeral?_append hq rest
    rw [h] at hp'
    cases hp'
    exact hqp
  · rintro ⟨hp, ⟨rest, rfl⟩, hlongest⟩
    obtain ⟨p', hp', hpp⟩ := numeral?_append hp rest
    obtain ⟨hnumeral, hprefix⟩ := isNumeral_of_numeral? hp'
    have hsame : p = p' := hpp.eq_of_length_le (hlongest p' hnumeral hprefix).length_le
    rw [hp', hsame]

theorem numeral?_self {p : List Char} (hp : IsNumeral p) : numeral? p = some p :=
  numeral?_eq_some_iff.2 ⟨hp, List.prefix_rfl, fun _ _ hprefix => hprefix⟩

theorem numeral?_eq_none_iff {cs : List Char} : numeral? cs = none ↔ ∀ q, IsNumeral q → ¬ q <+: cs := by
  constructor
  · rintro h q hq ⟨rest, rfl⟩
    obtain ⟨p, hp, -⟩ := numeral?_append hq rest
    rw [h] at hp
    cases hp
  · intro h
    cases hp : numeral? cs with
    | none => rfl
    | some p =>
      obtain ⟨hnumeral, hprefix⟩ := isNumeral_of_numeral? hp
      exact absurd hprefix (h p hnumeral)

/-- What goes on with no mantissa and no complete exponent is not part of the numeral. -/
theorem isLongestPrefix_mantissa {blanks sign m rest : List Char} (hblanks : ∀ c ∈ blanks, Text.isBlank c)
    (hsign : IsSign sign) (hm : IsMantissa Text.isDecimalDigit m) (hends : EndsMantissa Text.isDecimalDigit rest)
    (hexponent : ∀ e, IsExponent Text.isDecimalDigit e → ¬ e <+: rest) :
    IsLongestPrefix IsNumeral (blanks ++ (sign ++ m) ++ rest) (blanks ++ (sign ++ m)) := by
  have hafter : afterUnsigned? (m ++ ([] ++ rest)) = some rest := by
    rw [List.nil_append, afterUnsigned?_decimal (.unscaled hm)]
    exact splitDecimal_mantissa recognises_isDecimalDigit hm hends hexponent
  have hnumeral := numeral?_parts hblanks hsign (.decimal (.unscaled hm)) hafter
  rw [List.nil_append, List.append_nil] at hnumeral
  exact numeral?_eq_some_iff.1 hnumeral

end Display

end Reckoner
