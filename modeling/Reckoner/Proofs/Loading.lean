import Reckoner.Proofs.Numerals
import Reckoner.Proofs.Reloading
/-!
# Files line by line

A file that is no table is the text of its lines, each with its end. A carriage return and the line feed of a blank
line behind it are one end, so the lines of the text are not the lines that it was made of; they are up to the blank
ones (`Text.lines_joined`), and those are dropped. What is loaded meets its warning in a batch: the expressions that
are counted as incomplete have an error there, and the others have none but about an argument.
-/

namespace Reckoner

namespace Text

/-! ## Lines and their ends -/

inductive LineEnd where
  | feed
  | pair
  | carriage
  deriving DecidableEq

def LineEnd.characters : LineEnd → List Char
  | feed => ['\n']
  | pair => ['\r', '\n']
  | carriage => ['\r']

/-- The text of lines with their ends, and of a last line without one. -/
def joined (ls : List (List Char × LineEnd)) (last : List Char) : List Char :=
  ls.flatMap (fun l => l.1 ++ l.2.characters) ++ last

/-- No line ends within. -/
def IsLine (cs : List Char) : Prop := '\r' ∉ cs ∧ '\n' ∉ cs

/-- Not all of the line is blank. -/
def isVisible (cs : List Char) : Bool := cs.any (!isBlank ·)

section
variable {cs l : List Char} {rest : List (List Char)}

theorem lines_cons {c : Char} (hc : c ≠ '\r' ∧ c ≠ '\n') (cs : List Char) :
    lines (c :: cs) = match lines cs with
      | [] => [[c]]
      | l :: ls => (c :: l) :: ls := by
  rw [lines.eq_def]
  split
  · next heq => cases heq
  · next heq => exact absurd (List.cons.inj heq).1 hc.1
  · next heq =>
    cases heq
    cases lines cs <;> simp [hc]

theorem lines_feed (cs : List Char) : lines ('\n' :: cs) = [] :: lines cs := by
  simp [lines]

theorem lines_pair (cs : List Char) : lines ('\r' :: '\n' :: cs) = [] :: lines cs := by
  simp [lines]

theorem lines_carriage (h : cs.head? ≠ some '\n') : lines ('\r' :: cs) = [] :: lines cs := by
  cases cs with
  | nil => simp [lines]
  | cons c cs =>
    have hc : c ≠ '\n' := by simpa using h
    simp [lines, hc]

/-- A line is what stands before the first end. -/
theorem lines_append (hl : IsLine l) (h : lines cs = [] :: rest) : lines (l ++ cs) = l :: rest := by
  induction l with
  | nil => exact h
  | cons c l ih =>
    obtain ⟨hr, hn⟩ := hl
    rw [List.mem_cons, not_or] at hr hn
    rw [List.cons_append, lines_cons ⟨Ne.symm hr.1, Ne.symm hn.1⟩, ih ⟨hr.2, hn.2⟩]

theorem lines_self (hl : IsLine l) : lines l = if l = [] then [] else [l] := by
  induction l with
  | nil => simp [lines]
  | cons c l ih =>
    obtain ⟨hr, hn⟩ := hl
    rw [List.mem_cons, not_or] at hr hn
    rw [lines_cons ⟨Ne.symm hr.1, Ne.symm hn.1⟩, ih ⟨hr.2, hn.2⟩, if_neg (List.cons_ne_nil c l)]
    split
    · next heq => split at heq <;> simp_all
    · next heq => split at heq <;> simp_all

/-- The blank line that a carriage return may take from what follows does not count. -/
theorem visible_lines_append (hl : IsLine l) (e : LineEnd) (cs : List Char) :
    (lines (l ++ (e.characters ++ cs))).filter isVisible = (l :: lines cs).filter isVisible := by
  cases e with
  | feed =>
    show (lines (l ++ '\n' :: cs)).filter isVisible = _
    rw [lines_append hl (lines_feed cs)]
  | pair =>
    show (lines (l ++ '\r' :: '\n' :: cs)).filter isVisible = _
    rw [lines_append hl (lines_pair cs)]
  | carriage =>
    show (lines (l ++ '\r' :: cs)).filter isVisible = _
    by_cases hfeed : cs.head? = some '\n'
    · obtain ⟨cs, rfl⟩ := List.head?_eq_some_iff.1 hfeed
      have hblank : ¬ isVisible [] := by simp [isVisible]
      rw [lines_append hl (lines_pair cs), lines_feed, List.filter_cons, List.filter_cons,
        List.filter_cons_of_neg hblank]
    · rw [lines_append hl (lines_carriage hfeed)]

/-- The lines of a text are those it was made of, but for blank ones. -/
theorem lines_joined {ls : List (List Char × LineEnd)} {last : List Char} (hls : ∀ l ∈ ls, IsLine l.1)
    (hlast : IsLine last) :
    (lines (joined ls last)).filter isVisible = (ls.map (·.1) ++ [last]).filter isVisible := by
  induction ls with
  | nil =>
    show (lines last).filter isVisible = [last].filter isVisible
    rw [lines_self hlast]
    split
    · next hnil =>
      subst hnil
      rfl
    · rfl
  | cons l ls ih =>
    have hfirst : joined (l :: ls) last = l.1 ++ (l.2.characters ++ joined ls last) := by
      simp [joined]
    rw [hfirst, visible_lines_append (hls l List.mem_cons_self), List.map_cons, List.cons_append, List.filter_cons,
      List.filter_cons, ih fun l hl => hls l (List.mem_cons_of_mem _ hl)]

end

/-! ## Stripped lines -/

theorem trimmedBy_eq_nil_iff {isBlank : Char → Bool} {cs : List Char} :
    trimmedBy isBlank cs = [] ↔ ∀ c ∈ cs, isBlank c := by
  constructor
  · intro h
    rw [← List.dropWhile_eq_nil_iff]
    by_contra hne
    obtain ⟨c, rest, hrest⟩ := List.exists_cons_of_ne_nil hne
    have hc : isBlank c = false := by
      have hhead := List.head_dropWhile_not isBlank hne
      simpa [hrest] using hhead
    obtain ⟨tail, htail⟩ := trimmedBy_cons_of_neg hc rest
    have hsplit : trimmedBy isBlank (cs.takeWhile isBlank ++ cs.dropWhile isBlank) = trimmedBy isBlank (c :: rest) := by
      rw [trimmedBy_append_of_pos (fun _ hc => List.mem_takeWhile_imp hc), hrest]
    rw [List.takeWhile_append_dropWhile, h, htail] at hsplit
    cases hsplit
  · intro h
    rw [← List.append_nil cs, trimmedBy_append_of_pos h]
    rfl

theorem strip_ne_empty_iff (cs : List Char) : strip (String.ofList cs) ≠ "" ↔ isVisible cs := by
  rw [strip, String.toList_ofList, ne_eq, ← String.ofList_nil, String.ofList_inj, trimmedBy_eq_nil_iff]
  simp [isVisible]

end Text

/-- How many incomplete expressions a warning counts, and the first of them. -/
def LogEvent.incomplete? : LogEvent → Option (Nat × String)
  | incompleteFound count first => some (count, first)
  | _ => none

namespace ExpressionFile

/-! ## Loading -/

/-- The visible lines of a text, stripped. -/
def expressions (ls : List (List Char)) : List String :=
  (ls.filter Text.isVisible).map fun l => Text.strip (String.ofList l)

theorem load_toUTF8 {path : String} (hpath : isTable path = false) (column : Datum) (text : List Char) :
    load path column (.ok (String.ofList text).toUTF8) =
      (.ok (expressions (Text.lines text)),
        LogEvent.loading path ::
          warnings ((Text.lines text).map String.ofList) (expressions (Text.lines text)) ++
          [LogEvent.loaded (expressions (Text.lines text)).length]) := by
  have hraw : raw path column (String.ofList text).toUTF8 = .ok ((Text.lines text).map String.ofList) := by
    rw [raw_toUTF8, rawOfText, if_neg (by simp [hpath]), String.toList_ofList]
  have hkept : (((Text.lines text).map String.ofList).map Text.strip).filter (· ≠ "") =
      expressions (Text.lines text) := by
    have hvisible : ∀ l ∈ Text.lines text,
        ((fun x : String => decide (x ≠ "")) ∘ Text.strip ∘ String.ofList) l = Text.isVisible l := by
      intro l _
      rw [Bool.eq_iff_iff, ← Text.strip_ne_empty_iff, Function.comp_apply, Function.comp_apply, decide_eq_true_iff]
    rw [List.map_map, List.filter_map, List.filter_congr hvisible]
    rfl
  simp only [load, hraw, hkept]

/-- The expressions without a complete structure are counted, if there are any. -/
theorem filterMap_incomplete (path : String) (raw kept : List String) (count : Nat) :
    (LogEvent.loading path :: warnings raw kept ++ [LogEvent.loaded count]).filterMap LogEvent.incomplete? =
      ((kept.filter (!isCompleteExpression ·)).head?.map
        ((kept.filter (!isCompleteExpression ·)).length, ·)).toList := by
  have hblanks : (if raw.length - kept.length = 0 then []
      else [LogEvent.blankSkipped (raw.length - kept.length)]).filterMap LogEvent.incomplete? = [] := by
    split <;> rfl
  unfold warnings
  cases hincomplete : kept.filter (!isCompleteExpression ·) with
  | nil =>
    simp only [List.filterMap_append, List.filterMap_cons, hblanks]
    rfl
  | cons first rest =>
    simp only [List.filterMap_append, List.filterMap_cons, hblanks]
    rfl

/-- A byte order mark in front belongs to the first expression. -/
theorem expressions_mark {ls : List (List Char × Text.LineEnd)} {last cs : List Char}
    (h : Text.joined ls last = '\uFEFF' :: cs) :
    ∃ first others, expressions (ls.map (·.1) ++ [last]) = first :: others ∧ first.toList.head? = some '\uFEFF' := by
  obtain ⟨l, others, hlines⟩ : ∃ l others, ls.map (·.1) ++ [last] = ('\uFEFF' :: l) :: others := by
    cases ls with
    | nil => exact ⟨cs, [], congrArg (fun l => [l]) h⟩
    | cons line ls =>
      obtain ⟨l, lineEnd⟩ := line
      cases l with
      | nil => cases lineEnd <;> exact absurd (List.cons.inj h).1 (by decide)
      | cons c l =>
        obtain rfl : c = '\uFEFF' := (List.cons.inj h).1
        exact ⟨l, _, rfl⟩
  have hmark : Text.isBlank '\uFEFF' = false := by decide
  have hvisible : Text.isVisible ('\uFEFF' :: l) := by simp [Text.isVisible, hmark]
  obtain ⟨tail, htail⟩ := Text.trimmedBy_cons_of_neg hmark l
  refine ⟨_, _, by rw [hlines, expressions, List.filter_cons_of_pos hvisible, List.map_cons], ?_⟩
  rw [Text.strip, String.toList_ofList, String.toList_ofList, htail]
  rfl

end ExpressionFile

/-- Under a strict flag the structure decides which kind of error a row can have. -/
theorem Session.error_of_row {s : Session} (hflag : s.partially = .bool false) (x : String) :
    (isCompleteExpression x = false → ∃ e, (s.query x).row.error = some e) ∧
    (isCompleteExpression x = true → ∀ e, (s.query x).row.error = some e → e.kind = .invalidArgument) := by
  have hresult : (s.query x).result = Reckoner.evaluate s.mode false x := by rw [s.query_eq hflag]; rfl
  constructor
  · intro h
    obtain ⟨e, he⟩ := evaluate_of_incomplete h s.mode
    exact ⟨e, Query.error?_eq_some_iff.2 (hresult.trans he)⟩
  · intro h e he
    have herror := hresult.symm.trans (Query.error?_eq_some_iff.1 he)
    rcases evaluate_of_complete h s.mode false with ⟨y, hy⟩ | ⟨e', he', hkind⟩
    · cases hy.symm.trans herror
    · cases he'.symm.trans herror
      exact hkind

/-- A file that is no table gives the lines that it was made of, stripped and without the blank ones, whichever ends
the lines have. No other character ends a line, and a byte order mark is one like any other. The expressions that are
counted as incomplete are those that a strict batch has an error for whatever their arguments are. -/
theorem load_joined {path : String} (hpath : ExpressionFile.isTable path = false) (column : Datum)
    {ls : List (List Char × Text.LineEnd)} {last : List Char} (hls : ∀ l ∈ ls, Text.IsLine l.1)
    (hlast : Text.IsLine last) :
    let kept := ExpressionFile.expressions (ls.map (·.1) ++ [last])
    let incomplete := kept.filter (!isCompleteExpression ·)
    (∃ log, ExpressionFile.load path column (.ok (String.ofList (Text.joined ls last)).toUTF8) = (.ok kept, log) ∧
      log.filterMap LogEvent.incomplete? = (incomplete.head?.map (incomplete.length, ·)).toList) ∧
    (∀ cs, Text.joined ls last = '\uFEFF' :: cs →
      ∃ first others, kept = first :: others ∧ first.toList.head? = some '\uFEFF') ∧
    ∀ s : Session, s.Reachable → s.partially = .bool false →
      ∃ rows s' log, Batch.evaluate s (kept.map .text) = (.ok rows, s', log) ∧
        rows.map (·.expression) = kept.map .text ∧
        ∀ row ∈ rows, ∀ x, row.expression = .text x →
          (x ∈ incomplete → ∃ e, row.error = some e) ∧
          (x ∉ incomplete → ∀ e, row.error = some e → e.kind = .invalidArgument) := by
  intro kept incomplete
  have hsame : ExpressionFile.expressions (Text.lines (Text.joined ls last)) = kept := by
    rw [ExpressionFile.expressions, Text.lines_joined hls hlast]
    rfl
  refine ⟨?_, fun cs => ExpressionFile.expressions_mark, ?_⟩
  · have hload := ExpressionFile.load_toUTF8 hpath column (Text.joined ls last)
    rw [hsame] at hload
    exact ⟨_, hload, ExpressionFile.filterMap_incomplete path _ kept kept.length⟩
  · intro s hs hflag
    obtain ⟨log, hbatch⟩ := hs.faithful.batch kept
    refine ⟨s.rows kept, _, log, hbatch, by rw [Session.rows, List.map_map]; rfl, ?_⟩
    intro row hrow x hx
    obtain ⟨y, hy, rfl⟩ := List.mem_map.1 hrow
    obtain rfl : y = x := Datum.text.inj hx
    obtain ⟨hincomplete, hcomplete⟩ := s.error_of_row hflag y
    have hcounted : y ∈ incomplete ↔ isCompleteExpression y = false := by
      simp [incomplete, hy]
    refine ⟨fun h => hincomplete (hcounted.1 h), fun h => hcomplete ?_⟩
    simpa using mt hcounted.2 h

/-- All three line ends, a carriage return in front of the line feed of an empty line, and a byte order mark. -/
theorem load_joined_of_mixed_ends :
    ∃ s₀, Session.create (.text "degree") (.int 2) (.int 1) (.bool false) = .ok s₀ ∧
      ExpressionFile.isTable "a.txt" = false ∧
      let ls : List (List Char × Text.LineEnd) :=
        [("\uFEFF1+1".toList, .carriage), ([], .feed), (" 2\u2028-\x0c ".toList, .pair), ("\u3000".toList, .carriage),
          ("3+".toList, .carriage)]
      let last := "fact(2.5)".toList
      let kept := ["\uFEFF1+1", "2\u2028-", "3+", "fact(2.5)"]
      (∀ l ∈ ls, Text.IsLine l.1) ∧ Text.IsLine last ∧
      (∃ log, ExpressionFile.load "a.txt" .null (.ok (String.ofList (Text.joined ls last)).toUTF8) = (.ok kept, log) ∧
        log.filterMap LogEvent.incomplete? = [(2, "2\u2028-")]) ∧
      ∃ rows s' log, Batch.evaluate s₀ (kept.map .text) = (.ok rows, s', log) ∧
        (∀ row ∈ rows, row.expression = .text "3+" → ∃ e, row.error = some e) ∧
        ∀ row ∈ rows, row.expression = .text "fact(2.5)" → ∀ e, row.error = some e → e.kind = .invalidArgument := by
  let s₀ : Session := ⟨.degree, .bool false, .ofBound (.atMost 2), .empty, .bound (.atMost 1), [], 0, 0⟩
  have hcreate : Session.create (.text "degree") (.int 2) (.int 1) (.bool false) = .ok s₀ := rfl
  have hsize : Datum.IsNonnegative (.int 1) := ⟨.int 1, 1, rfl, rfl, by decide⟩
  have hpath : ExpressionFile.isTable "a.txt" = false := by decide +kernel
  refine ⟨s₀, hcreate, hpath, ?_⟩
  intro ls last kept
  have hls : ∀ l ∈ ls, Text.IsLine l.1 := by
    unfold Text.IsLine
    decide +kernel
  have hlast : Text.IsLine last := by
    unfold Text.IsLine
    decide +kernel
  obtain ⟨⟨log, hload, hlog⟩, -, hbatch⟩ := load_joined hpath .null hls hlast
  have hkept : ExpressionFile.expressions (ls.map (·.1) ++ [last]) = kept := by decide +kernel
  have hincomplete : kept.filter (!isCompleteExpression ·) = ["2\u2028-", "3+"] := by decide +kernel
  rw [hkept] at hload hlog hbatch
  rw [hincomplete] at hlog hbatch
  obtain ⟨rows, s', log', hrows, -, herrors⟩ := hbatch s₀ ⟨_, _, _, _, s₀, [], hcreate, hsize, rfl⟩ rfl
  refine ⟨hls, hlast, ⟨log, hload, hlog⟩, rows, s', log', hrows, ?_, ?_⟩
  · exact fun row hrow hx => (herrors row hrow _ hx).1 (by simp)
  · exact fun row hrow hx => (herrors row hrow _ hx).2 (by simp)

end Reckoner
