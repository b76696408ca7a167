import Reckoner.Dialogue
import Reckoner.Proofs.Agreement
import Reckoner.Proofs.Failures
import Reckoner.Proofs.Readings
/-!
# What is displayed is read back

A display holds the text of a number or the wording of an error. The text of a number has one of few forms
(`Numeral.IsText`), each of them a numeral throughout, so the memory keys read the number itself. No wording of an
error begins with a numeral; it counts as zero, and adding or subtracting that leaves the memory at its place.
-/

namespace Reckoner

namespace Numeral

/-! ## The texts of numbers -/

/-- A minus sign or none, then digits on both sides of a point; digits with or without a fraction, and an exponent
with its sign and at least two digits; or `inf`. -/
inductive IsText : List Char → Prop
  | positional (negative : Bool) {whole fraction : List Char} (hwhole : IsDigits Char.isDigit whole)
      (hfraction : IsDigits Char.isDigit fraction) : IsText (signed negative (whole ++ '.' :: fraction))
  | scientific (negative : Bool) {whole fraction exponent : List Char} {sign : Char}
      (hwhole : IsDigits Char.isDigit whole)
      (hfraction : fraction = [] ∨ ∃ fs, IsDigits Char.isDigit fs ∧ fraction = '.' :: fs)
      (hsign : sign = '+' ∨ sign = '-') (hexponent : IsDigits Char.isDigit exponent) (htwo : 2 ≤ exponent.length) :
      IsText (signed negative (whole ++ (fraction ++ 'e' :: sign :: exponent)))
  | infinite (negative : Bool) : IsText (signed negative "inf".toList)

theorem Parts.Written.isText {p : Parts} (hp : p.Written) (negative : Bool) :
    IsText (signed negative p.characters) := by
  have hwhole : IsDigits Char.isDigit p.whole := ⟨hp.whole_ne_nil, hp.whole⟩
  unfold Parts.characters Parts.exponentCharacters
  by_cases hexponent : p.exponent = []
  · rw [if_pos hexponent, if_neg (hp.point hexponent), List.append_nil]
    exact .positional negative hwhole ⟨hp.point hexponent, hp.fraction⟩
  · rw [if_neg hexponent]
    refine .scientific negative hwhole ?_ ?_ ⟨hexponent, hp.exponent⟩ (hp.two hexponent)
    · by_cases hfraction : p.fraction = []
      · exact .inl (if_pos hfraction)
      · exact .inr ⟨p.fraction, ⟨hfraction, hp.fraction⟩, if_neg hfraction⟩
    · cases p.exponentNegative <;> simp

theorem isText_render {x : Double} (h : x ≠ .nan) : IsText x.render.toList := by
  cases x with
  | nan => exact absurd rfl h
  | infinite negative => cases negative with
    | false => exact .infinite false
    | true => exact .infinite true
  | finite negative rank =>
    obtain ⟨p, hp, htext, -⟩ := exists_render negative rank
    rw [htext, String.toList_ofList]
    exact hp.isText negative

theorem IsDigits.anyScript {ds : List Char} (h : IsDigits Char.isDigit ds) : IsDigits Text.isDecimalDigit ds :=
  ⟨h.1, fun c hc => recognises_isDecimalDigit.digit c (h.2 c hc)⟩

theorem isNumeral_signed {u : List Char} (hu : IsMagnitude Text.isDecimalDigit u) (negative : Bool) :
    Display.IsNumeral (signed negative u) := by
  have hblanks : ∀ c ∈ ([] : List Char), Text.isBlank c := by simp
  cases negative with
  | false => exact .parts hblanks (.inl rfl) hu
  | true => exact .parts hblanks (.inr (.inr rfl)) hu

theorem IsText.isNumeral {cs : List Char} (h : IsText cs) : Display.IsNumeral cs := by
  cases h with
  | positional negative hwhole hfraction =>
    exact isNumeral_signed (.decimal (.unscaled (.point hwhole.anyScript hfraction.anyScript.2))) negative
  | @scientific negative whole fraction exponent sign hwhole hfraction hsign hexponent =>
    have hmantissa : IsMantissa Text.isDecimalDigit (whole ++ fraction) := by
      rcases hfraction with rfl | ⟨fs, hfs, rfl⟩
      · rw [List.append_nil]
        exact .whole hwhole.anyScript
      · exact .point hwhole.anyScript hfs.anyScript.2
    have hscale : IsExponent Text.isDecimalDigit ('e' :: ([sign] ++ exponent)) := by
      refine .marked (.inl rfl) ?_ hexponent.anyScript
      rcases hsign with rfl | rfl
      · exact .inr (.inl rfl)
      · exact .inr (.inr rfl)
    rw [← List.append_assoc]
    exact isNumeral_signed (.decimal (.scaled hmantissa hscale)) negative
  | infinite negative => exact isNumeral_signed .inf negative

end Numeral

/-! ## Keys that add nothing -/

namespace Double

theorem signed_neg {n : Nat} (h : n ≠ 0) (negative : Bool) : decide (signed negative n < 0) = negative := by
  cases negative with
  | false => simp [signed]
  | true => simp [signed, Nat.pos_of_ne_zero h]

theorem natAbs_signed (negative : Bool) (n : Nat) : (signed negative n).natAbs = n := by
  cases negative <;> simp [signed]

theorem place?_zero (negative : Bool) : (zero negative).place? = some 0 := by cases negative <;> rfl

/-- A sum with a zero is where it was, though the sign of a zero may go. -/
theorem place?_add_zero (x : Double) (negative : Bool) : (x.add (zero negative)).place? = x.place? := by
  cases x with
  | nan => rfl
  | infinite => rfl
  | finite sign rank =>
    have hsum : signed sign (unitsOfRank rank) + signed negative (unitsOfRank 0) = signed sign (unitsOfRank rank) := by
      cases negative <;> simp [signed, unitsOfRank]
    have hadd : (finite sign rank).add (zero negative) =
        if signed sign (unitsOfRank rank) = 0 then zero (sign && negative)
        else ofRatio (signed sign (unitsOfRank rank) < 0) (signed sign (unitsOfRank rank)).natAbs unitsPerOne := by
      rw [← hsum]
      rfl
    rw [hadd]
    by_cases hunits : unitsOfRank rank = 0
    · have hrank : rank = ⟨0, by decide⟩ := Fin.ext (units_eq_zero_iff.1 hunits)
      rw [hunits, if_pos (by cases sign <;> rfl), hrank]
      exact (place?_zero _).trans (place?_zero sign).symm
    · have hne : signed sign (unitsOfRank rank) ≠ 0 := by
        intro h
        exact hunits (by rw [← natAbs_signed sign (unitsOfRank rank), h]; rfl)
      rw [if_neg hne, natAbs_signed, signed_neg hunits, ofRatio, nearestRank_units, ofRank_lt rank.isLt]

end Double

namespace Memory

theorem place?_press_zero (m : Memory) {key : MemoryKey} (hkey : key = .add ∨ key = .subtract) :
    (m.press key (.zero false)).2 = none ∧ (m.press key (.zero false)).1.value.place? = m.value.place? := by
  rcases hkey with rfl | rfl
  · exact ⟨rfl, m.value.place?_add_zero false⟩
  · exact ⟨rfl, m.value.place?_add_zero true⟩

end Memory

namespace Session

theorem memory_evaluate (s : Session) (expression : String) : (s.evaluate expression).2.memory = s.memory := by
  unfold evaluate
  split
  · rfl
  · split
    · rfl
    · unfold evaluateAnew
      split <;> rfl

theorem memory_submit (s : Session) (expression : String) : (s.submit expression).2.memory = s.memory := by
  have hmemory := s.memory_evaluate expression
  unfold submit
  split
  all_goals
    rename_i hevaluate
    rw [hevaluate] at hmemory
    exact hmemory

/-- The wording of an error counts as zero for the keys. -/
theorem press_message (s : Session) (e : EvaluationError) {key : MemoryKey} (hkey : key = .add ∨ key = .subtract) :
    ∃ s', s.press (.text key.name) (.text e.message) = (.ok none, s') ∧
      s'.memory.value.place? = s.memory.value.place? := by
  have hpress : s.memory.pressData (.text key.name) (.text e.message) = .ok (s.memory.press key (.zero false)) := by
    have hnamed : MemoryKey.ofDatum (.text key.name) = .ok key := by cases key <;> rfl
    rw [Memory.pressData, hnamed, Display.ofDatum_text, Display.read_message]
    rfl
  obtain ⟨hnone, hplace⟩ := s.memory.place?_press_zero hkey
  refine ⟨{ s with memory := (s.memory.press key (.zero false)).1 }, ?_, hplace⟩
  simp only [press, hpress, hnone]

end Session

namespace Dialogue

theorem submit_of_error {d : Dialogue} {text : String} {e : EvaluationError}
    (h : (d.session.submit text).1 = .ok ⟨text, .error e⟩) :
    (d.submit text).dialogue = ⟨(d.session.submit text).2, e.message⟩ := by
  unfold submit
  split
  · next submission s hsubmit =>
    rw [hsubmit] at h
    cases h
    rw [hsubmit]
    rfl
  · next f s hsubmit =>
    rw [hsubmit] at h
    cases h

theorem press_message {d : Dialogue} {e : EvaluationError} (hdisplay : d.display = e.message) {key : MemoryKey}
    (hkey : key = .add ∨ key = .subtract) :
    (d.press key).ending = .goesOn ∧ (d.press key).outputs = [] ∧
      (d.press key).dialogue.session.memory.value.place? = d.session.memory.value.place? := by
  obtain ⟨hnone, hplace⟩ := d.session.memory.place?_press_zero hkey
  unfold press
  rw [hdisplay, Display.read_message]
  simp only [hnone]
  exact ⟨rfl, rfl, hplace⟩

end Dialogue

/-- A number that is displayed is read back from its text, but that a zero loses its sign and `nan` counts as zero; each
form of these texts is read to its end. The wording of whatever is wrong with an expression counts as zero, so the keys
that add and subtract leave the memory at its place after a submission without a value. -/
theorem displays_are_read_back :
    (∀ x : Double, Display.ofDatum (.text x.render) = .ok (if x.isNan || x.isZero then .zero false else x)) ∧
    (∀ x : Double, x ≠ .nan → Numeral.IsText x.render.toList) ∧
    (∀ cs, Numeral.IsText cs → Display.numeral? cs = some cs) ∧
    (∀ mode partially text fault, evaluate mode partially text = .error fault →
      ∃ e, fault = .evaluation e ∧ Display.ofDatum (.text fault.message) = .ok (.zero false)) ∧
    ∀ (d : Dialogue) text e, (d.session.submit text).1 = .ok ⟨text, .error e⟩ →
      ∀ key, key = .add ∨ key = .subtract →
        (∃ s, (d.session.submit text).2.press (.text key.name) (.text e.message) = (.ok none, s) ∧
          s.memory.value.place? = d.session.memory.value.place?) ∧
        let reply := (d.submit text).dialogue.press key
        reply.ending = .goesOn ∧ reply.outputs = [] ∧
          reply.dialogue.session.memory.value.place? = d.session.memory.value.place? := by
  refine ⟨fun x => Display.read_render x, fun x => Numeral.isText_render,
    fun cs hcs => Display.numeral?_self hcs.isNumeral, ?_, ?_⟩
  · intro mode partially text fault h
    obtain ⟨e, rfl, -⟩ := fault_of_evaluate h
    exact ⟨e, rfl, Display.read_message e⟩
  · intro d text e h key hkey
    have hmemory := d.session.memory_submit text
    obtain ⟨s, hpress, hplace⟩ := (d.session.submit text).2.press_message e hkey
    have hdialogue := d.submit_of_error h
    obtain ⟨hending, houtputs, hsame⟩ := (d.submit text).dialogue.press_message (by rw [hdialogue]) hkey
    refine ⟨⟨s, hpress, hplace.trans (by rw [hmemory])⟩, hending, houtputs, hsame.trans ?_⟩
    rw [hdialogue, hmemory]

/-- A zero with a sign, an exponent without a fraction, and a factorial that fails while the memory holds 7. -/
theorem displays_are_read_back_of_factorial :
    let s : Session := ⟨.radian, .bool false, .ofBound (.atMost 2), ⟨.ofNat 7⟩, .bound (.atMost 1), [], 0, 0⟩
    let d : Dialogue := ⟨s, ""⟩
    let e : EvaluationError := .badFactorial (.ofInt (-1))
    Display.ofDatum (.text (Double.zero true).render) = .ok (.zero false) ∧
    Numeral.IsText "-2e-07".toList ∧ Display.numeral? "-2e-07".toList = some "-2e-07".toList ∧
    (s.submit "fact(2-3)").1 = .ok ⟨"fact(2-3)", .error e⟩ ∧
    (d.submit "fact(2-3)").outputs = ["Invalid factorial argument: -1"] ∧
    ((d.submit "fact(2-3)").dialogue.press .subtract).dialogue.session.memory.value.place? =
      d.session.memory.value.place? := by
  intro s d e
  have hs : s.Faithful := ⟨⟨false, rfl⟩, .inr ⟨1, rfl⟩, by simp [s]⟩
  have hresult : (s.query "fact(2-3)").result = .error (.evaluation e) := Query.error?_eq_some_iff.1 (by decide +kernel)
  have hsubmit : (s.submit "fact(2-3)").1 = .ok ⟨"fact(2-3)", .error e⟩ := by rw [hs.submit_of_error hresult]
  have htext : Numeral.IsText "-2e-07".toList := by
    have hwhole : Numeral.IsDigits Char.isDigit ['2'] := Numeral.isDigits_singleton rfl
    have hexponent : Numeral.IsDigits Char.isDigit ['0', '7'] := ⟨by simp, by simp⟩
    exact .scientific true hwhole (.inl rfl) (.inr rfl) hexponent (by decide)
  have houtputs : (d.submit "fact(2-3)").outputs = [e.message] := by
    unfold Dialogue.submit
    rw [hs.submit_of_error hresult]
    rfl
  have hmessage : e.message = "Invalid factorial argument: -1" := by decide +kernel
  rw [hmessage] at houtputs
  exact ⟨displays_are_read_back.1 (.zero true), htext, displays_are_read_back.2.2.1 _ htext, hsubmit, houtputs,
    (displays_are_read_back.2.2.2.2 d _ e hsubmit .subtract (.inr rfl)).2.2.2⟩

end Reckoner
