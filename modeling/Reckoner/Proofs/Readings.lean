import Reckoner.Proofs.Expression
import Reckoner.Proofs.Prefixes
/-!
# The number of a display

The number of a display is read off its longest numeral. Digits of any script become ASCII digits and blanks become
spaces, so a numeral is one in ASCII and names a number. A separator U+001C to U+001F is the exception: it counts as
blank where the numeral is found and not where the number is read.
-/

namespace Reckoner

/-! ## Numerals in ASCII -/

namespace Text

/-- The blanks that a number may not have around it. -/
def isSeparator (c : Char) : Bool := 0x1c ≤ c.toNat && c.toNat ≤ 0x1f

end Text

namespace Numeral

theorem isDigit_toAscii {c : Char} (h : Text.isDecimalDigit c) : (toAscii c).isDigit := by
  obtain ⟨z, hz, hlow, hhigh, hdigit⟩ := Text.exists_zero h
  have hbetween := Text.digitZeros_between z hz
  unfold toAscii
  split
  · have hrange : 48 ≤ c.toNat ∧ c.toNat ≤ 57 := by omega
    simpa [Char.isDigit, UInt32.le_iff_toNat_le] using hrange
  · have hall : ∀ i < 10, (Nat.digitChar i).isDigit := by decide
    simp only [Text.not_isBlank_of_isDecimalDigit h, hdigit]
    exact hall _ (by omega)

theorem isAsciiBlank_toAscii {c : Char} (h : Text.isBlank c) :
    Text.isAsciiBlank (toAscii c) = !Text.isSeparator c ∧ toAscii c ≠ '_' := by
  have hspace : c = ' ' ↔ c.toNat = 32 := ⟨fun h => h ▸ rfl, fun h => by rw [← c.ofNat_toNat, h]⟩
  have hunderscore : c = '_' → c.toNat = 95 := fun h => h ▸ rfl
  unfold toAscii
  split
  · next hascii =>
    simp only [Text.isBlank, Bool.or_eq_true, Bool.and_eq_true, decide_eq_true_eq] at h
    have hcode : Text.isAsciiBlank c ↔ ¬ Text.isSeparator c := by
      simp only [Text.isAsciiBlank, Text.isSeparator, Bool.or_eq_true, Bool.and_eq_true, decide_eq_true_eq, hspace]
      omega
    refine ⟨by rw [Bool.eq_iff_iff, hcode, Bool.not_eq_true', Bool.not_eq_true], fun heq => ?_⟩
    have := hunderscore heq
    omega
  · next hascii =>
    have hno : ¬ Text.isSeparator c := by
      simp only [Text.isSeparator, Bool.and_eq_true, decide_eq_true_eq]
      omega
    rw [Bool.not_eq_true] at hno
    rw [hno]
    decide

theorem toAscii_of_isSeparator {c : Char} (h : Text.isSeparator c) : toAscii c = c := by
  simp only [Text.isSeparator, Bool.and_eq_true, decide_eq_true_eq] at h
  exact if_pos (by omega)

section
variable {ds m e d u : List Char}

theorem IsDigits.ascii (h : IsDigits Text.isDecimalDigit ds) : IsDigits Char.isDigit (ds.map toAscii) := by
  refine ⟨by simpa using h.1, ?_⟩
  rintro _ hc
  obtain ⟨c, hmem, rfl⟩ := List.mem_map.1 hc
  exact isDigit_toAscii (h.2 c hmem)

theorem IsMantissa.ascii (h : IsMantissa Text.isDecimalDigit m) : IsMantissa Char.isDigit (m.map toAscii) := by
  cases h with
  | whole h => exact .whole h.ascii
  | @point ds fs h hfs =>
    rw [List.map_append, List.map_cons]
    refine .point h.ascii fun _ hc => ?_
    obtain ⟨c, hmem, rfl⟩ := List.mem_map.1 hc
    exact isDigit_toAscii (hfs c hmem)
  | fraction h => exact .fraction h.ascii

theorem IsExponent.ascii (h : IsExponent Text.isDecimalDigit e) : IsExponent Char.isDigit (e.map toAscii) := by
  obtain @⟨mark, sign, ds, hmark, hsign, hds⟩ := h
  have hmark' : toAscii mark = mark := by rcases hmark with rfl | rfl <;> decide
  have hsign' : sign.map toAscii = sign := by rcases hsign with rfl | rfl | rfl <;> decide
  rw [List.map_cons, List.map_append, hmark', hsign']
  exact .marked hmark hsign hds.ascii

theorem IsMagnitude.ascii (h : IsMagnitude Text.isDecimalDigit u) : IsMagnitude Char.isDigit (u.map toAscii) := by
  cases h with
  | infinity => exact .infinity
  | inf => exact .inf
  | decimal h =>
    cases h with
    | unscaled hm => exact .decimal (.unscaled hm.ascii)
    | scaled hm he =>
      rw [List.map_append]
      exact .decimal (.scaled hm.ascii he.ascii)

theorem IsMantissa.isPlain (h : IsMantissa Char.isDigit m) : ∀ c ∈ m, IsPlain c := by
  cases h with
  | whole h => exact fun c hc => .inl (h.2 c hc)
  | point h hfs =>
    intro c hc
    rcases List.mem_append.1 hc with hc | hc
    · exact .inl (h.2 c hc)
    · rcases List.mem_cons.1 hc with rfl | hc
      · exact .inr (.inl rfl)
      · exact .inl (hfs c hc)
  | fraction h =>
    intro c hc
    rcases List.mem_cons.1 hc with rfl | hc
    · exact .inr (.inl rfl)
    · exact .inl (h.2 c hc)

theorem IsExponent.isPlain (h : IsExponent Char.isDigit e) : ∀ c ∈ e, IsPlain c ∨ c = 'E' := by
  obtain ⟨hmark, hsign, hds⟩ := h
  intro c hc
  rcases List.mem_cons.1 hc with rfl | hc
  · exact hmark.imp (fun h => .inr (.inr (.inl h))) id
  · rcases List.mem_append.1 hc with hc | hc
    · rcases hsign with rfl | rfl | rfl
      · cases hc
      · exact .inl (.inr (.inr (.inr (.inr (List.mem_singleton.1 hc)))))
      · exact .inl (.inr (.inr (.inr (.inl (List.mem_singleton.1 hc)))))
    · exact .inl (.inl (hds.2 c hc))

theorem visible_of_isPlain {c : Char} (h : IsPlain c) : 32 < c.toNat ∧ c ≠ '_' := by
  have hcode := h.toNat
  refine ⟨by omega, ?_⟩
  rintro rfl
  exact hcode.2.2 rfl

/-- No blank is part of a number, and no underscore. -/
theorem IsMagnitude.visible (h : IsMagnitude Char.isDigit u) : ∀ c ∈ u, 32 < c.toNat ∧ c ≠ '_' := by
  cases h with
  | infinity => simp
  | inf => simp
  | decimal h =>
    cases h with
    | unscaled hm => exact fun c hc => visible_of_isPlain (hm.isPlain c hc)
    | scaled hm he =>
      intro c hc
      rcases List.mem_append.1 hc with hc | hc
      · exact visible_of_isPlain (hm.isPlain c hc)
      · rcases he.isPlain c hc with hplain | rfl
        · exact visible_of_isPlain hplain
        · decide

end

/-! ## What a numeral names -/

/-- What a text without its sign and the blanks around it names. -/
def named? (negative : Bool) (body : List Char) : Option Double := do
  let word := String.ofList (body.map Char.toLower)
  if word = "inf" || word = "infinity" then return .infinite negative
  if word = "nan" then return .nan
  match splitDecimal Char.isDigit body with
  | some (parts, []) => return parts.decimal.round negative
  | _ => none

theorem double?_eq {text : String} (h : '_' ∉ text.toList.map toAscii) :
    double? text = named? (splitSign (Text.trimmedBy Text.isAsciiBlank (text.toList.map toAscii))).1
      (splitSign (Text.trimmedBy Text.isAsciiBlank (text.toList.map toAscii))).2 := by
  simp only [double?, dropUnderscores_eq_some h, Option.bind_eq_bind, Option.bind_some]
  unfold named?
  generalize splitDecimal _ _ = decimal
  rcases decimal with - | ⟨parts, - | -⟩ <;> rfl

theorem exists_named {u : List Char} (h : IsMagnitude Char.isDigit u) (negative : Bool) :
    ∃ x, named? negative u = some x := by
  cases h with
  | infinity => exact ⟨.infinite negative, rfl⟩
  | inf => exact ⟨.infinite negative, rfl⟩
  | decimal h =>
    obtain ⟨rest, hrest, hsuffix⟩ := splitDecimal_append recognises_isDigit h []
    rw [List.append_nil, Option.map_eq_some_iff] at hrest
    obtain ⟨⟨parts, rest⟩, hsplit, rfl⟩ := hrest
    obtain rfl := List.suffix_nil.1 hsuffix
    simp only [named?, hsplit]
    split
    · exact ⟨_, rfl⟩
    · split
      · exact ⟨_, rfl⟩
      · exact ⟨_, rfl⟩

/-- Trimming stops at a separator. -/
theorem exists_separator {blanks : List Char} (hblanks : ∀ c ∈ blanks, Text.isBlank c) {c : Char} (hc : c ∈ blanks)
    (hseparator : Text.isSeparator c) (cs : List Char) : ∃ d tail, Text.isSeparator d ∧
      Text.trimmedBy Text.isAsciiBlank (blanks.map toAscii ++ cs) = d :: tail := by
  induction blanks with
  | nil => cases hc
  | cons b bs ih =>
    have hb := (isAsciiBlank_toAscii (hblanks b List.mem_cons_self)).1
    by_cases hfirst : Text.isSeparator b
    · rw [toAscii_of_isSeparator hfirst, hfirst] at hb
      obtain ⟨tail, htail⟩ := Text.trimmedBy_cons_of_neg hb (bs.map toAscii ++ cs)
      refine ⟨b, tail, hfirst, ?_⟩
      rw [List.map_cons, toAscii_of_isSeparator hfirst, List.cons_append, htail]
    · have hmem : c ∈ bs := (List.mem_cons.1 hc).resolve_left fun h => hfirst (h ▸ hseparator)
      have hskip : ∀ a ∈ [toAscii b], Text.isAsciiBlank a := by simp [hb, hfirst]
      rw [List.map_cons, ← List.singleton_append, List.append_assoc, Text.trimmedBy_append_of_pos hskip]
      exact ih (fun a ha => hblanks a (List.mem_cons_of_mem _ ha)) hmem

theorem splitSign_separator {c : Char} (h : Text.isSeparator c) (cs : List Char) :
    splitSign (c :: cs) = (false, c :: cs) := by
  unfold splitSign
  split
  case h_1 heq => exact absurd h (by rw [(List.cons.inj heq).1]; decide)
  case h_2 heq => exact absurd h (by rw [(List.cons.inj heq).1]; decide)
  case h_3 => rfl

theorem named?_separator {c : Char} (h : Text.isSeparator c) (negative : Bool) (cs : List Char) :
    named? negative (c :: cs) = none := by
  have hcode : 0x1c ≤ c.toNat ∧ c.toNat ≤ 0x1f := by simpa [Text.isSeparator] using h
  have hword : ∀ word : String, word.toList.head?.any (fun d => !Text.isSeparator d) →
      String.ofList ((c :: cs).map Char.toLower) ≠ word := by
    rintro word hhead rfl
    rw [String.toList_ofList, List.map_cons, List.head?_cons, toLower_of_lt (by omega)] at hhead
    simp [h] at hhead
  have hdecimal : splitDecimal Char.isDigit (c :: cs) = none := by
    have hdigit : ¬ c.isDigit := fun hdigit => by
      have := toNat_of_isDigit hdigit
      omega
    have hpoint : c ≠ '.' := by
      rintro rfl
      exact absurd h (by decide)
    have hsplit : splitDigits Char.isDigit (c :: cs) = ([], c :: cs) := by simp [splitDigits, hdigit]
    rw [splitDecimal, splitMantissa_of_none (by simpa using hpoint) hsplit, Option.map_none]
  simp only [named?, hword "inf" (by decide), hword "infinity" (by decide), hword "nan" (by decide), hdecimal,
    decide_false, Bool.or_false, Bool.false_eq_true, if_false]

section
variable {blanks sign u : List Char} (hblanks : ∀ c ∈ blanks, Text.isBlank c) (hsign : IsSign sign)
  (hu : IsMagnitude Text.isDecimalDigit u)
include hsign hu

omit hu in
theorem map_toAscii_signed : (sign ++ u).map toAscii = sign ++ u.map toAscii := by
  rw [List.map_append]
  rcases hsign with rfl | rfl | rfl <;> rfl

theorem visible_signed : ∀ c ∈ sign ++ u.map toAscii, 32 < c.toNat ∧ c ≠ '_' := by
  intro c hc
  rcases List.mem_append.1 hc with hc | hc
  · rcases hsign with rfl | rfl | rfl
    · cases hc
    all_goals
      obtain rfl := List.mem_singleton.1 hc
      decide
  · exact hu.ascii.visible c hc

theorem not_isSeparator_of_mem_signed {c : Char} (hc : c ∈ sign ++ u) : Text.isSeparator c = false := by
  by_contra h
  rw [Bool.not_eq_false] at h
  have hmem : toAscii c ∈ sign ++ u.map toAscii := map_toAscii_signed hsign ▸ List.mem_map_of_mem hc
  rw [toAscii_of_isSeparator h] at hmem
  have hvisible := (visible_signed hsign hu c hmem).1
  simp only [Text.isSeparator, Bool.and_eq_true, decide_eq_true_eq] at h
  omega

include hblanks

theorem double?_numeral : double? (String.ofList (blanks ++ (sign ++ u))) =
    named? (splitSign (Text.trimmedBy Text.isAsciiBlank (blanks.map toAscii ++ (sign ++ u.map toAscii)))).1
      (splitSign (Text.trimmedBy Text.isAsciiBlank (blanks.map toAscii ++ (sign ++ u.map toAscii)))).2 := by
  have hmap : (blanks ++ (sign ++ u)).map toAscii = blanks.map toAscii ++ (sign ++ u.map toAscii) := by
    rw [List.map_append, map_toAscii_signed hsign]
  rw [double?_eq, String.toList_ofList, hmap]
  rw [String.toList_ofList, hmap, List.mem_append, not_or]
  constructor
  · intro h
    obtain ⟨c, hc, heq⟩ := List.mem_map.1 h
    exact (isAsciiBlank_toAscii (hblanks c hc)).2 heq
  · exact fun h => (visible_signed hsign hu _ h).2 rfl

/-- A numeral without separators names a number. -/
theorem exists_double (hseparator : ∀ c ∈ blanks, Text.isSeparator c = false) :
    ∃ x, double? (String.ofList (blanks ++ (sign ++ u))) = some x := by
  have hascii : ∀ c ∈ blanks.map toAscii, Text.isAsciiBlank c := by
    rintro _ hc
    obtain ⟨c, hmem, rfl⟩ := List.mem_map.1 hc
    rw [(isAsciiBlank_toAscii (hblanks c hmem)).1, hseparator c hmem]
    rfl
  have hself : Text.trimmedBy Text.isAsciiBlank (sign ++ u.map toAscii) = sign ++ u.map toAscii :=
    Text.trimmedBy_eq_self fun c hc => Text.not_isAsciiBlank_of_lt (visible_signed hsign hu c hc).1
  have hbody : (splitSign (sign ++ u.map toAscii)).2 = u.map toAscii := by
    have happend := splitSign_magnitude recognises_isDigit hsign hu.ascii []
    rwa [List.append_nil] at happend
  rw [double?_numeral hblanks hsign hu, Text.trimmedBy_append_of_pos hascii, hself, hbody]
  exact exists_named hu.ascii _

/-- A numeral with a separator names no number. -/
theorem double?_eq_none {c : Char} (hc : c ∈ blanks) (hseparator : Text.isSeparator c) :
    double? (String.ofList (blanks ++ (sign ++ u))) = none := by
  obtain ⟨d, tail, hd, htrim⟩ := exists_separator hblanks hc hseparator (sign ++ u.map toAscii)
  rw [double?_numeral hblanks hsign hu, htrim, splitSign_separator hd]
  exact named?_separator hd false tail

end

end Numeral

/-! ## Displays -/

namespace Display

open Numeral

/-- A numeral names a number just where it has no separator. -/
theorem double?_isNumeral {p : List Char} (hp : IsNumeral p) :
    (∀ c ∈ p, Text.isSeparator c = false) ∧ (∃ x, double? (String.ofList p) = some x) ∨
      (∃ c ∈ p, Text.isSeparator c) ∧ double? (String.ofList p) = none := by
  obtain @⟨blanks, sign, u, hblanks, hsign, hu⟩ := hp
  by_cases hseparator : ∃ c ∈ blanks, Text.isSeparator c
  · obtain ⟨c, hc, hsep⟩ := hseparator
    exact .inr ⟨⟨c, List.mem_append_left _ hc, hsep⟩, double?_eq_none hblanks hsign hu hc hsep⟩
  · have hnone : ∀ c ∈ blanks, Text.isSeparator c = false := by simpa using hseparator
    refine .inl ⟨fun c hc => ?_, exists_double hblanks hsign hu hnone⟩
    rcases List.mem_append.1 hc with hc | hc
    · exact hnone c hc
    · exact not_isSeparator_of_mem_signed hsign hu hc

theorem ofDatum_text (s : String) : ofDatum (.text s) = read s := rfl

/-- What follows the longest numeral of a text does not count. -/
theorem ofDatum_of_isLongestPrefix {s : String} {p : List Char} (h : IsLongestPrefix IsNumeral s.toList p) :
    ofDatum (.text s) = ofDatum (.text (String.ofList p)) := by
  rw [ofDatum_text, ofDatum_text, read, read, String.toList_ofList, numeral?_eq_some_iff.2 h, numeral?_self h.1]

/-- A display counts as its longest numeral, and as zero without one; it is refused where a separator is among the
blanks of the numeral. Text behind the numeral changes nothing, nor does what only begins an exponent. -/
theorem ofDatum_longest_numeral (s : String) :
    ((∃ p, IsLongestPrefix IsNumeral s.toList p ∧
        ((∀ c ∈ p, Text.isSeparator c = false) ∧ (∃ x, double? (String.ofList p) = some x ∧
            ofDatum (.text s) = .ok (if x.isZero then .zero false else x)) ∨
          (∃ c ∈ p, Text.isSeparator c) ∧ ofDatum (.text s) = .error (.notANumeral (String.ofList p)))) ∨
      (∀ q, IsNumeral q → ¬ q <+: s.toList) ∧ ofDatum (.text s) = .ok (.zero false)) ∧
    (∀ p, IsLongestPrefix IsNumeral s.toList p → ofDatum (.text s) = ofDatum (.text (String.ofList p))) ∧
    ∀ blanks sign m rest, s.toList = blanks ++ (sign ++ m) ++ rest → (∀ c ∈ blanks, Text.isBlank c) → IsSign sign →
      IsMantissa Text.isDecimalDigit m → EndsMantissa Text.isDecimalDigit rest →
      (∀ e, IsExponent Text.isDecimalDigit e → ¬ e <+: rest) →
      ofDatum (.text s) = ofDatum (.text (String.ofList (blanks ++ (sign ++ m)))) := by
  refine ⟨?_, fun p hp => ofDatum_of_isLongestPrefix hp, ?_⟩
  · cases hnumeral : numeral? s.toList with
    | none =>
      refine .inr ⟨numeral?_eq_none_iff.1 hnumeral, ?_⟩
      rw [ofDatum_text, read, hnumeral]
    | some p =>
      have hlongest := numeral?_eq_some_iff.1 hnumeral
      refine .inl ⟨p, hlongest, ?_⟩
      rcases double?_isNumeral hlongest.1 with ⟨hnone, x, hx⟩ | ⟨hsome, hx⟩
      · refine .inl ⟨hnone, x, hx, ?_⟩
        simp only [ofDatum_text, read, hnumeral, hx]
      · refine .inr ⟨hsome, ?_⟩
        simp only [ofDatum_text, read, hnumeral, hx]
  · intro blanks sign m rest hs hblanks hsign hm hends hexponent
    exact ofDatum_of_isLongestPrefix (hs ▸ isLongestPrefix_mantissa hblanks hsign hm hends hexponent)

/-- A numeral in two scripts, with the start of an exponent behind it. -/
theorem ofDatum_longest_numeral_of_started_exponent :
    let shown := "\u3000-٢.5e+ m"
    shown.toList = ['\u3000'] ++ (['-'] ++ ['٢', '.', '5']) ++ "e+ m".toList ∧
    ofDatum (.text shown) = ofDatum (.text "\u3000-٢.5") ∧
    ofDatum (.text shown) = .ok (Decimal.round true ⟨25, -1⟩) := by
  intro shown
  have htext : shown.toList = ['\u3000'] ++ (['-'] ++ ['٢', '.', '5']) ++ "e+ m".toList := by decide
  have hwhole : IsDigits Text.isDecimalDigit ['٢'] := isDigits_singleton (by decide)
  have hfraction : ∀ c ∈ ['5'], Text.isDecimalDigit c := List.forall_mem_singleton.2 (by decide)
  have hends : EndsMantissa Text.isDecimalDigit "e+ m".toList := by
    intro c hc
    obtain rfl : 'e' = c := Option.some.inj hc
    decide
  have hexponent : ∀ e, IsExponent Text.isDecimalDigit e → ¬ e <+: "e+ m".toList :=
    not_isExponent_of_prefix recognises_isDecimalDigit rfl
  have hsame : ofDatum (.text shown) = ofDatum (.text (String.ofList (['\u3000'] ++ (['-'] ++ ['٢', '.', '5'])))) :=
    (ofDatum_longest_numeral shown).2.2 _ _ _ _ htext (List.forall_mem_singleton.2 (by decide)) (.inr (.inr rfl))
      (.point hwhole hfraction) hends hexponent
  exact ⟨htext, hsame, toOption_eq_some_iff.1 (by decide +kernel)⟩

/-- Reading may fail, though the whole text is a numeral. -/
theorem ofDatum_separator :
    IsNumeral "\x1c0".toList ∧ ofDatum (.text "\x1c0") = .error (.notANumeral "\x1c0") := by
  have hblank : ∀ c ∈ ['\x1c'], Text.isBlank c := List.forall_mem_singleton.2 (by decide)
  have hzero : IsMagnitude Text.isDecimalDigit ['0'] :=
    .decimal (.unscaled (.whole (isDigits_singleton (by decide))))
  exact ⟨.parts hblank (.inl rfl) hzero, rfl⟩

end Display

end Reckoner
