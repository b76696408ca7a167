import Mathlib.Data.List.DropRight
import Reckoner.Dialogue
import Reckoner.ExpressionFile
import Reckoner.Proofs.Numerals
import Reckoner.Proofs.Scanning
import Reckoner.Text.Blank
/-!
# Gaps

A character that no lexeme goes on with (`Separates`) cuts a text in two parts that are scanned apart
(`scan_separator`), and one that is in no lexeme at all (`IsForeign`) adds nothing between them. Blanks are such
characters, so what is stripped off a text makes no difference to it (`tokenize_separated`).
-/

namespace Reckoner

/-- No lexeme goes on with the character: it is no digit, no point and in the name of no function. -/
def Separates (c : Char) : Prop := ¬ c.isDigit ∧ c ≠ '.' ∧ ∀ f : Func, c ∉ f.spelling.toList

/-! ## The lexeme at the start of a text -/

namespace Literal

def parts (n : Literal) : List Char × Option (List Char) := (n.whole, n.fraction)

theorem parts_injective : Function.Injective parts := by
  rintro ⟨whole, fraction, _, _, _⟩ ⟨whole', fraction', _, _, _⟩ h
  obtain ⟨rfl, rfl⟩ := Prod.mk.inj h
  rfl

/-- The digits behind a point at the start of a text. -/
def fraction? : List Char → Option (List Char)
  | '.' :: rest => some (rest.takeWhile Char.isDigit)
  | _ => none

theorem first?_parts (cs : List Char) :
    (first? cs).map parts = if cs.takeWhile Char.isDigit = [] then none
      else some (cs.takeWhile Char.isDigit, fraction? (cs.dropWhile Char.isDigit)) := by
  unfold first?
  dsimp only
  by_cases h : cs.takeWhile Char.isDigit = []
  · rw [dif_pos h, if_pos h]
    rfl
  · rw [dif_neg h, if_neg h]
    rfl

theorem prefix_of_first? {cs : List Char} {n : Literal} (h : first? cs = some n) : n.characters <+: cs := by
  have hparts := first?_parts cs
  rw [h] at hparts
  split at hparts
  · cases hparts
  · obtain ⟨hwhole, hfraction⟩ := Prod.mk.inj (Option.some.inj hparts)
    have hcs : cs.takeWhile Char.isDigit ++ cs.dropWhile Char.isDigit = cs := List.takeWhile_append_dropWhile
    rw [characters, hwhole, hfraction]
    conv_rhs => rw [← hcs]
    refine (List.prefix_append_right_inj _).2 ?_
    cases cs.dropWhile Char.isDigit with
    | nil => exact List.nil_prefix
    | cons d ds =>
      by_cases hd : d = '.'
      · subst hd
        exact List.cons_prefix_cons.2 ⟨rfl, List.takeWhile_prefix _⟩
      · have hnone : fraction? (d :: ds) = none := by simp [fraction?, hd]
        rw [hnone]
        exact List.nil_prefix

/-- In a literal there are digits and, behind the first of them, a point. -/
theorem isDigit_or_point {n : Literal} {us vs : List Char} {c : Char} (h : n.characters = us ++ c :: vs) :
    c.isDigit ∨ (c = '.' ∧ us = n.whole) := by
  obtain ⟨whole, fraction, _, hwhole, hfraction⟩ := n
  have hdigits := List.all_eq_true.1 hwhole
  unfold characters at h
  rcases List.append_eq_append_iff.1 h with ⟨as, rfl, has⟩ | ⟨as, rfl, has⟩
  · cases fraction with
    | none => simp at has
    | some ds =>
      rcases List.cons_eq_append_iff.1 has with ⟨rfl, hcons⟩ | ⟨as, rfl, rfl⟩
      · exact .inr ⟨(List.cons.inj hcons).1, List.append_nil _⟩
      · exact .inl (List.all_eq_true.1 hfraction c (by simp))
  · rcases List.cons_eq_append_iff.1 has with ⟨rfl, htail⟩ | ⟨as, rfl, rfl⟩
    · cases fraction with
      | none => cases htail
      | some ds => exact .inr ⟨(List.cons.inj htail).1.symm, (List.append_nil _).symm⟩
    · exact .inl (hdigits c (by simp))

end Literal

namespace Lexeme

theorem prefix_of_first? {cs : List Char} {l : Lexeme} (h : first? cs = some l) : l.characters <+: cs := by
  unfold first? at h
  cases hn : Literal.first? cs with
  | some n =>
    rw [hn] at h
    obtain rfl := Option.some.inj h
    exact Literal.prefix_of_first? hn
  | none =>
    rw [hn] at h
    obtain ⟨s, hs, rfl⟩ := Option.map_eq_some_iff.1 h
    have hprefix : s.spelling.toList <+: cs := by simpa using List.find?_some hs
    exact hprefix

end Lexeme

/-! ## Separators -/

/-- Only the names of functions have more than one character. -/
theorem Symbol.function_of_two_le {s : Symbol} (h : 2 ≤ s.spelling.toList.length) : ∃ f, s = .function f := by
  have single : ∀ s ∈ all, 2 ≤ s.spelling.toList.length → ∃ f ∈ Func.all, s = .function f := by decide +kernel
  obtain ⟨f, -, hf⟩ := single s s.mem_all h
  exact ⟨f, hf⟩

section
variable {c : Char} (hc : Separates c)
include hc

theorem Separates.takeWhile (as bs : List Char) :
    (as ++ c :: bs).takeWhile Char.isDigit = as.takeWhile Char.isDigit := by
  induction as with
  | nil => exact List.takeWhile_cons_of_neg hc.1
  | cons a as ih => rw [List.cons_append, List.takeWhile_cons, List.takeWhile_cons, ih]

theorem Separates.dropWhile (as bs : List Char) :
    (as ++ c :: bs).dropWhile Char.isDigit = as.dropWhile Char.isDigit ++ c :: bs := by
  induction as with
  | nil => exact List.dropWhile_cons_of_neg hc.1
  | cons a as ih =>
    rw [List.cons_append, List.dropWhile_cons, List.dropWhile_cons, ih]
    split <;> rfl

theorem Separates.fraction? (as bs : List Char) : Literal.fraction? (as ++ c :: bs) = Literal.fraction? as := by
  have hnone : ∀ {d : Char} {ds : List Char}, d ≠ '.' → Literal.fraction? (d :: ds) = none := by
    intro d ds hd
    simp [Literal.fraction?, hd]
  cases as with
  | nil => exact hnone hc.2.1
  | cons a as =>
    by_cases ha : a = '.'
    · subst ha
      exact congrArg some (hc.takeWhile as bs)
    · rw [List.cons_append, hnone ha, hnone ha]

theorem Separates.literal (as bs : List Char) : Literal.first? (as ++ c :: bs) = Literal.first? as := by
  apply Option.map_injective Literal.parts_injective
  rw [Literal.first?_parts, Literal.first?_parts, hc.takeWhile, hc.dropWhile, hc.fraction?]

/-- A name that starts before a separator ends before it. -/
theorem Separates.prefix_iff {as : List Char} (has : as ≠ []) (bs : List Char) (s : Symbol) :
    s.spelling.toList <+: as ++ c :: bs ↔ s.spelling.toList <+: as := by
  refine ⟨fun h => ?_, fun h => h.trans (List.prefix_append _ _)⟩
  rcases List.prefix_or_prefix_of_prefix h (List.prefix_append as (c :: bs)) with h' | ⟨t, ht⟩
  · exact h'
  · rw [← ht, List.prefix_append_right_inj] at h
    cases t with
    | nil =>
      have hs : s.spelling.toList = as := ht.symm.trans (List.append_nil as)
      exact hs ▸ List.prefix_rfl
    | cons d t =>
      obtain ⟨rfl, -⟩ := List.cons_prefix_cons.1 h
      have hlength : 2 ≤ s.spelling.toList.length := by
        rw [← ht, List.length_append, List.length_cons]
        have := List.length_pos_iff.2 has
        omega
      obtain ⟨f, rfl⟩ := Symbol.function_of_two_le hlength
      refine absurd ?_ (hc.2.2 f)
      show d ∈ (Symbol.function f).spelling.toList
      rw [← ht]
      simp

/-- A name that starts with a separator is no longer. -/
theorem Separates.prefix_cons_iff (bs : List Char) (s : Symbol) :
    s.spelling.toList <+: c :: bs ↔ s.spelling.toList <+: [c] := by
  refine ⟨fun h => ?_, fun h => h.trans (List.prefix_append [c] bs)⟩
  obtain ⟨d, ds, hs, -⟩ := s.head_spelling
  rw [hs] at h ⊢
  obtain ⟨rfl, -⟩ := List.cons_prefix_cons.1 h
  cases ds with
  | nil => exact List.prefix_rfl
  | cons e es =>
    obtain ⟨f, rfl⟩ := Symbol.function_of_two_le (show 2 ≤ s.spelling.toList.length by rw [hs]; simp)
    refine absurd ?_ (hc.2.2 f)
    show d ∈ (Symbol.function f).spelling.toList
    rw [hs]
    simp

namespace Lexeme

theorem first?_separator {as : List Char} (has : as ≠ []) (bs : List Char) :
    first? (as ++ c :: bs) = first? as := by
  have hsymbol : ∀ s : Symbol,
      s.spelling.toList.isPrefixOf (as ++ c :: bs) = s.spelling.toList.isPrefixOf as := fun s => by
    rw [Bool.eq_iff_iff, List.isPrefixOf_iff_prefix, List.isPrefixOf_iff_prefix, hc.prefix_iff has]
  simp only [first?, hc.literal, hsymbol]

theorem first?_cons_separator (bs : List Char) : first? (c :: bs) = first? [c] := by
  have hsymbol : ∀ s : Symbol, s.spelling.toList.isPrefixOf (c :: bs) = s.spelling.toList.isPrefixOf [c] :=
    fun s => by
      rw [Bool.eq_iff_iff, List.isPrefixOf_iff_prefix, List.isPrefixOf_iff_prefix, hc.prefix_cons_iff]
  have hliteral : Literal.first? (c :: bs) = Literal.first? [c] :=
    (hc.literal [] bs).trans (hc.literal [] []).symm
  simp only [first?, hliteral, hsymbol]

theorem scan_cons_separator (bs : List Char) : scan (c :: bs) = scan [c] ++ scan bs := by
  rw [scan, scan, first?_cons_separator hc]
  cases hl : first? [c] with
  | none => simp [scan]
  | some l =>
    have hlength : l.characters.length = 1 :=
      Nat.le_antisymm (prefix_of_first? hl).length_le (List.length_pos_iff.2 l.characters_ne_nil)
    simp [hlength, scan]

/-- The parts of a text before a separator and behind it are scanned apart. -/
theorem scan_separator (as bs : List Char) : scan (as ++ c :: bs) = scan as ++ scan [c] ++ scan bs := by
  -- as long as something is left of `as`, the next lexeme is found in it, whatever follows
  induction as using scan.induct with
  | case1 => rw [List.nil_append, scan_cons_separator hc, scan, List.nil_append]
  | case2 a as hnone ih =>
    have hnone' : first? (a :: (as ++ c :: bs)) = none := (first?_separator hc (by simp) bs).trans hnone
    rw [List.cons_append, scan, hnone', scan, hnone]
    exact ih
  | case3 a as l hl ih =>
    have hl' : first? (a :: (as ++ c :: bs)) = some l := (first?_separator hc (by simp) bs).trans hl
    have hdrop : (a :: (as ++ c :: bs)).drop l.characters.length =
        (a :: as).drop l.characters.length ++ c :: bs :=
      List.drop_append_of_le_length (prefix_of_first? hl).length_le
    rw [List.cons_append, scan, hl', scan, hl]
    dsimp only
    rw [hdrop, ih]
    rfl

end Lexeme

end

/-! ## Characters in no lexeme -/

/-- The character is in no lexeme. -/
def IsForeign (c : Char) : Prop := ¬ c.isDigit ∧ c ≠ '.' ∧ ∀ s : Symbol, c ∉ s.spelling.toList

/-- No lexeme has a character of a class that is without the point and the characters of symbols, digits aside. -/
theorem isForeign_of_class {p : Char → Bool} (hsymbols : ∀ s ∈ Symbol.all, s.spelling.toList.all (!p ·))
    (hpoint : p '.' = false) {c : Char} (hc : p c) (hdigit : ¬ c.isDigit) : IsForeign c := by
  refine ⟨hdigit, ?_, fun s hs => ?_⟩
  · rintro rfl
    rw [hpoint] at hc
    cases hc
  · have hsymbol := List.all_eq_true.1 (hsymbols s s.mem_all) c hs
    simp [hc] at hsymbol

section
variable {c : Char} (hc : IsForeign c)
include hc

theorem IsForeign.separates : Separates c := ⟨hc.1, hc.2.1, fun f hf => hc.2.2 (.function f) hf⟩

theorem IsForeign.not_mem_characters (l : Lexeme) : c ∉ l.characters := by
  intro h
  cases l with
  | literal n =>
    obtain ⟨us, vs, hsplit⟩ := List.append_of_mem h
    exact (Literal.isDigit_or_point hsplit).elim hc.1 fun hpoint => hc.2.1 hpoint.1
  | symbol s => exact hc.2.2 s h

theorem IsForeign.scan_singleton : Lexeme.scan [c] = [] := by
  have hnone : Lexeme.first? [c] = none := by
    cases hl : Lexeme.first? [c] with
    | none => rfl
    | some l =>
      have hprefix : l.characters <+: [c] := Lexeme.prefix_of_first? hl
      obtain ⟨d, ds, hd⟩ := List.exists_cons_of_ne_nil l.characters_ne_nil
      rw [hd] at hprefix
      obtain ⟨rfl, -⟩ := List.cons_prefix_cons.1 hprefix
      exact absurd (hd ▸ List.mem_cons_self) (hc.not_mem_characters l)
  simp [Lexeme.scan, hnone]

/-- What is in no lexeme keeps the texts before and behind it apart, as any separator does, and adds nothing. -/
theorem IsForeign.scan_append_cons (as bs : List Char) :
    Lexeme.scan (as ++ c :: bs) = Lexeme.scan as ++ Lexeme.scan bs := by
  rw [Lexeme.scan_separator hc.separates, hc.scan_singleton, List.append_nil]

end

/-! ## Blanks -/

theorem isForeign_of_isBlank {c : Char} (h : Text.isBlank c) : IsForeign c := by
  refine isForeign_of_class (by decide +kernel) (by decide) h fun hdigit => ?_
  have hrange := Numeral.toNat_of_isDigit hdigit
  simp only [Text.isBlank, Bool.or_eq_true, Bool.and_eq_true, decide_eq_true_eq] at h
  omega

namespace Lexeme

theorem scan_dropWhile_isBlank (cs : List Char) : scan (cs.dropWhile Text.isBlank) = scan cs := by
  induction cs with
  | nil => rfl
  | cons c cs ih =>
    by_cases hc : Text.isBlank c
    · rw [List.dropWhile_cons_of_pos hc, ih, ← List.nil_append (c :: cs), (isForeign_of_isBlank hc).scan_append_cons]
      simp [scan]
    · rw [List.dropWhile_cons_of_neg hc]

theorem scan_rdropWhile_isBlank (cs : List Char) : scan (cs.rdropWhile Text.isBlank) = scan cs := by
  induction cs using List.reverseRecOn with
  | nil => rfl
  | append_singleton cs c ih =>
    by_cases hc : Text.isBlank c
    · rw [List.rdropWhile_concat_pos _ _ _ hc, ih, (isForeign_of_isBlank hc).scan_append_cons]
      simp [scan]
    · rw [List.rdropWhile_concat_neg _ _ _ hc]

/-- The blanks at both ends of a text are no part of any lexeme. -/
theorem scan_trimmed (cs : List Char) : scan (Text.trimmedBy Text.isBlank cs) = scan cs :=
  (scan_rdropWhile_isBlank _).trans (scan_dropWhile_isBlank cs)

end Lexeme

theorem tokenize_strip (text : String) : tokenize (Text.strip text) = tokenize text := by
  rw [tokenize, tokenize, Text.strip, String.toList_ofList, Lexeme.scan_trimmed]

/-- A text means the same when it is stripped. -/
theorem evaluate_strip (mode : AngleMode) (partially : Bool) (text : String) :
    evaluate mode partially (Text.strip text) = evaluate mode partially text := by
  rw [evaluate, evaluate, tokenize_strip]

theorem isCompleteExpression_strip (text : String) :
    isCompleteExpression (Text.strip text) = isCompleteExpression text := by
  rw [isCompleteExpression, isCompleteExpression, tokenize_strip]

/-! ## Stripped texts in files and dialogues -/

theorem ExpressionFile.raw_toUTF8 (path : String) (column : Datum) (text : String) :
    raw path column text.toUTF8 = rawOfText path column text := by
  have hread : String.fromUTF8? text.toUTF8 = some text := by
    rw [String.fromUTF8?, dif_pos (show text.toUTF8.IsValidUTF8 from text.isValidUTF8)]
    rfl
  rw [raw, hread]

/-- What does not depend on blanks at the ends is the same of the expressions of a file and of those that are read in
it, the blank ones aside. -/
theorem ExpressionFile.load_map {α : Type} {f : String → α} (hf : ∀ text, f (Text.strip text) = f text)
    {path : String} {column : Datum} {content : ByteArray} {texts kept : List String}
    (hraw : raw path column content = .ok texts) (hload : (load path column (.ok content)).1 = .ok kept) :
    kept.map f = (texts.filter (Text.strip · ≠ "")).map f := by
  simp only [load, hraw, Except.ok.injEq] at hload
  simp only [← hload, List.filter_map, List.map_map, Function.comp_def, hf]

/-- A line that is taken for an expression is the expression. -/
theorem Command.eq_of_ofLine {line text : String} (h : ofLine line = .expression text) : text = line := by
  unfold ofLine at h
  repeat' split at h
  all_goals cases h
  rfl

/-- What is no digit, no point and no letter of a function cuts a text in two that are read apart. Blanks are such
characters, so a text means the same when it is stripped, and files and dialogues may strip what they read. -/
theorem tokenize_separated :
    (∀ (a b : String) (c : Char), ¬ c.isDigit → c ≠ '.' → c ∉ "sincotalgqrf".toList →
      tokenize (a ++ String.singleton c ++ b) = tokenize a ++ tokenize (String.singleton c) ++ tokenize b) ∧
    (∀ text : String, tokenize (Text.strip text) = tokenize text ∧
      isCompleteExpression (Text.strip text) = isCompleteExpression text ∧
      ∀ mode partially, evaluate mode partially (Text.strip text) = evaluate mode partially text) ∧
    (∀ path column content texts kept, ExpressionFile.raw path column content = .ok texts →
      (ExpressionFile.load path column (.ok content)).1 = .ok kept →
      kept.map isCompleteExpression = (texts.filter (Text.strip · ≠ "")).map isCompleteExpression ∧
      ∀ mode partially,
        kept.map (evaluate mode partially) = (texts.filter (Text.strip · ≠ "")).map (evaluate mode partially)) ∧
    ∀ line text, Command.ofLine (Text.strip line) = .expression text →
      isCompleteExpression text = isCompleteExpression line ∧
      ∀ mode partially, evaluate mode partially text = evaluate mode partially line := by
  refine ⟨fun a b c hdigit hpoint hletter => ?_, fun text => ⟨tokenize_strip text, isCompleteExpression_strip text,
    fun mode partially => evaluate_strip mode partially text⟩, fun path column content texts kept hraw hload => ?_,
    fun line text hline => ?_⟩
  · have hfunc : ∀ f : Func, f.spelling.toList ⊆ "sincotalgqrf".toList := by
      intro f
      cases f <;> decide +kernel
    have hc : Separates c := ⟨hdigit, hpoint, fun f hf => hletter (hfunc f hf)⟩
    simp only [tokenize, String.toList_append, String.toList_singleton, List.append_assoc, List.singleton_append]
    rw [Lexeme.scan_separator hc, List.map_append, List.map_append, List.append_assoc]
  · exact ⟨ExpressionFile.load_map isCompleteExpression_strip hraw hload,
      fun mode partially => ExpressionFile.load_map (evaluate_strip mode partially) hraw hload⟩
  · obtain rfl := Command.eq_of_ofLine hline
    exact ⟨isCompleteExpression_strip line, fun mode partially => evaluate_strip mode partially line⟩

/-- The product `2e*3` is cut at its sign, and it is the same with blanks around it in a text, a file and a dialogue. -/
theorem tokenize_separated_of_product :
    let product : List Token := [.number (.ofNat 2) "2", (Symbol.constant .e).token, (Symbol.binary .mul).token,
      .number (.ofNat 3) "3"]
    let content := " 2e*3 \n\t\n2 3".toUTF8
    let texts := [" 2e*3 ", "\t", "2 3"]
    let kept := ["2e*3", "2 3"]
    (tokenize "2e" ++ tokenize (String.singleton '*') ++ tokenize "3" = product ∧
      tokenize ("2e" ++ String.singleton '*' ++ "3") = product) ∧
    (tokenize (Text.strip " 2e*3 ") = product ∧ tokenize " 2e*3 " = product) ∧
    (ExpressionFile.raw "a.txt" .null content = .ok texts ∧
      (ExpressionFile.load "a.txt" .null (.ok content)).1 = .ok kept ∧
      ∀ mode partially, kept.map (evaluate mode partially) = [" 2e*3 ", "2 3"].map (evaluate mode partially)) ∧
    Command.ofLine (Text.strip " 2e*3 ") = .expression "2e*3" ∧
    ∀ mode partially, evaluate mode partially "2e*3" = evaluate mode partially " 2e*3 " := by
  intro product content texts kept
  have hparts : tokenize "2e" ++ tokenize (String.singleton '*') ++ tokenize "3" = product := by decide +kernel
  have hstripped : tokenize (Text.strip " 2e*3 ") = product := by decide +kernel
  have hraw : ExpressionFile.raw "a.txt" .null content = .ok texts := ExpressionFile.raw_toUTF8 ..
  have hload : (ExpressionFile.load "a.txt" .null (.ok content)).1 = .ok kept := by
    rw [ExpressionFile.load, hraw]
    rfl
  have hline : Command.ofLine (Text.strip " 2e*3 ") = .expression "2e*3" := by decide +kernel
  obtain ⟨hcut, htext, hfile, hdialogue⟩ := tokenize_separated
  have hwhole := hcut "2e" "3" '*' (by decide) (by decide) (by decide)
  have hvisible : texts.filter (Text.strip · ≠ "") = [" 2e*3 ", "2 3"] := by decide +kernel
  have hevaluate := (hfile "a.txt" .null content texts kept hraw hload).2
  rw [hvisible] at hevaluate
  exact ⟨⟨hparts, hwhole.trans hparts⟩, ⟨hstripped, (htext " 2e*3 ").1.symm.trans hstripped⟩,
    ⟨hraw, hload, hevaluate⟩, hline, (hdialogue _ _ hline).2⟩

end Reckoner
