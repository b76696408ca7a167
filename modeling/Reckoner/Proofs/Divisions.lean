import Reckoner.Proofs.Gaps
/-!
# How a text divides into lexemes and gaps

A text divides into lexemes and the gaps between them in just one way that is maximal: no lexeme starts inside a gap,
and no literal could be longer. At each place there is one lexeme to be found at most, up to the length of a literal
(`Lexeme.first?_append_eq_some_iff`), so it does not matter in which order literals and symbols are looked for
(`firstIn_eq`), and the scan finds the lexemes of that division (`divide_text`, `lexemes_divide`).
-/

namespace Reckoner

/-! ## The longest literal -/

namespace Literal
variable {n m : Literal} {cs rest : List Char}

/-- No literal goes on beyond this one into what follows. -/
def IsLongest (n : Literal) (rest : List Char) : Prop :=
  ∀ m : Literal, m.characters <+: n.characters ++ rest → m.characters <+: n.characters

theorem characters_injective : Function.Injective characters := by
  intro n m h
  have hn := n.first?_characters endsLiteral_nil
  rw [h, m.first?_characters endsLiteral_nil] at hn
  exact (Option.some.inj hn).symm

theorem exists_characters (n : Literal) : ∃ c cs, n.characters = c :: cs ∧ c.isDigit := by
  obtain ⟨c, cs, hwhole⟩ := List.exists_cons_of_ne_nil n.whole_ne_nil
  have hdigits := List.all_eq_true.1 n.whole_digits
  exact ⟨c, _, by rw [characters, hwhole, List.cons_append], hdigits c (by rw [hwhole]; exact List.mem_cons_self)⟩

theorem exists_first? (h : n.characters <+: cs) : ∃ m, first? cs = some m := by
  obtain ⟨c, ds, hn, hc⟩ := n.exists_characters
  obtain ⟨rest, rfl⟩ := h
  rw [hn, List.cons_append, first?, dif_neg]
  · exact ⟨_, rfl⟩
  · rw [List.takeWhile_cons_of_pos hc]
    exact List.cons_ne_nil _ _

/-- The literal that is found goes as far as any. -/
theorem prefix_of_first?_of_prefix (h : first? cs = some m) (hn : n.characters <+: cs) :
    n.characters <+: m.characters := by
  have hparts := first?_parts cs
  rw [h] at hparts
  split at hparts
  · cases hparts
  obtain ⟨hwhole, hfraction⟩ := Prod.mk.inj (Option.some.inj hparts)
  obtain ⟨rest, rfl⟩ := hn
  obtain ⟨whole, fraction, _, hdigits, hfractionDigits⟩ := n
  cases fraction with
  | none =>
    simp only [characters, List.append_nil] at hwhole ⊢
    rw [hwhole, List.takeWhile_append_of_pos (List.all_eq_true.1 hdigits), List.append_assoc]
    exact List.prefix_append _ _
  | some ds =>
    have hpoint : ∀ c ∈ ('.' :: (ds ++ rest)).head?, ¬ c.isDigit := by simp
    simp only [characters, List.append_assoc, List.cons_append, takeWhile_digits hdigits hpoint,
      dropWhile_digits hdigits hpoint, fraction?] at hwhole hfraction ⊢
    rw [hwhole, hfraction, List.takeWhile_append_of_pos (List.all_eq_true.1 hfractionDigits)]
    exact (List.prefix_append_right_inj _).2 (List.cons_prefix_cons.2 ⟨rfl, List.prefix_append _ _⟩)

/-- A literal is found where it could not be longer. -/
theorem first?_append_eq_some_iff : first? (n.characters ++ rest) = some n ↔ n.IsLongest rest := by
  refine ⟨fun h m hm => prefix_of_first?_of_prefix h hm, fun h => ?_⟩
  obtain ⟨m, hm⟩ := exists_first? (List.prefix_append n.characters rest)
  have hle : m.characters <+: n.characters := h m (prefix_of_first? hm)
  have hge : n.characters <+: m.characters := prefix_of_first?_of_prefix hm (List.prefix_append _ _)
  rw [hm, characters_injective (hle.eq_of_length_le hge.length_le)]

end Literal

/-! ## The lexeme at a place -/

namespace Lexeme
variable {cs rest : List Char}

theorem first?_eq_literal_iff {n : Literal} : first? cs = some (.literal n) ↔ Literal.first? cs = some n := by
  unfold first?
  cases Literal.first? cs with
  | some m => simp
  | none => simp

theorem first?_append_eq_some_iff {l : Lexeme} :
    first? (l.characters ++ rest) = some l ↔ ∀ n, l = .literal n → n.IsLongest rest := by
  cases l with
  | literal n =>
    rw [first?_eq_literal_iff, characters, Literal.first?_append_eq_some_iff]
    simp
  | symbol s => exact iff_of_true (first?_symbol s rest) (by simp)

theorem first?_eq_none_iff : first? cs = none ↔ ∀ l : Lexeme, ¬ l.characters <+: cs := by
  constructor
  · rintro h l ⟨rest, rfl⟩
    cases l with
    | literal n =>
      obtain ⟨m, hm⟩ := Literal.exists_first? (List.prefix_append n.characters rest)
      rw [characters, first?_eq_literal_iff.2 hm] at h
      cases h
    | symbol s =>
      rw [characters, first?_symbol] at h
      cases h
  · intro h
    cases hl : first? cs with
    | none => rfl
    | some l => exact absurd (prefix_of_first? hl) (h l)

end Lexeme

/-- A kind of lexemes that is looked for by itself. -/
inductive Alternative where
  | literal
  | symbol (s : Symbol)

namespace Alternative

def all : List Alternative := literal :: Symbol.all.map symbol

theorem mem_all (a : Alternative) : a ∈ all := by
  cases a with
  | literal => exact List.mem_cons_self
  | symbol s => exact List.mem_cons_of_mem _ (List.mem_map_of_mem s.mem_all)

def first? (cs : List Char) : Alternative → Option Lexeme
  | literal => (Literal.first? cs).map .literal
  | symbol s => if s.spelling.toList.isPrefixOf cs then some (.symbol s) else none

theorem first?_eq_some {cs : List Char} {a : Alternative} {l : Lexeme} (h : a.first? cs = some l) :
    Lexeme.first? cs = some l := by
  cases a with
  | literal =>
    obtain ⟨n, hn, rfl⟩ := Option.map_eq_some_iff.1 h
    exact Lexeme.first?_eq_literal_iff.2 hn
  | symbol s =>
    rw [first?] at h
    split at h
    · next hprefix =>
      cases h
      obtain ⟨rest, rfl⟩ := List.isPrefixOf_iff_prefix.1 hprefix
      exact Lexeme.first?_symbol s rest
    · cases h

theorem exists_first? {cs : List Char} {l : Lexeme} (h : Lexeme.first? cs = some l) :
    ∃ a : Alternative, a.first? cs = some l := by
  cases l with
  | literal n => exact ⟨literal, by rw [first?, Lexeme.first?_eq_literal_iff.1 h]; rfl⟩
  | symbol s =>
    have hprefix : s.spelling.toList <+: cs := Lexeme.prefix_of_first? h
    exact ⟨symbol s, if_pos (List.isPrefixOf_iff_prefix.2 hprefix)⟩

end Alternative

/-- The lexeme at the start of a text for one who looks for the alternatives in the given order. -/
def firstIn (order : List Alternative) (cs : List Char) : Option Lexeme := order.findSome? (·.first? cs)

section
variable {order : List Alternative} (horder : order.Perm Alternative.all)
include horder

theorem firstIn_eq (cs : List Char) : firstIn order cs = Lexeme.first? cs := by
  unfold firstIn
  cases hfound : order.findSome? (·.first? cs) with
  | some l =>
    obtain ⟨a, -, ha⟩ := List.exists_of_findSome?_eq_some hfound
    exact (Alternative.first?_eq_some ha).symm
  | none =>
    cases hl : Lexeme.first? cs with
    | none => rfl
    | some l =>
      obtain ⟨a, ha⟩ := Alternative.exists_first? hl
      have hnone := List.findSome?_eq_none_iff.1 hfound a (horder.mem_iff.2 a.mem_all)
      rw [ha] at hnone
      cases hnone

end

/-! ## Divisions -/

/-- A text as lexemes with a gap before each of them and a gap at the end. -/
inductive Division where
  | last (gap : List Char)
  | piece (gap : List Char) (l : Lexeme) (rest : Division)

/-- No lexeme starts inside the gap, whether or not it would go on into what follows. -/
def IsGap (gap rest : List Char) : Prop :=
  ∀ cs, cs <:+ gap → cs ≠ [] → ∀ l : Lexeme, ¬ l.characters <+: cs ++ rest

namespace Division

def text : Division → List Char
  | last gap => gap
  | piece gap l rest => gap ++ (l.characters ++ rest.text)

def lexemes : Division → List Lexeme
  | last _ => []
  | piece _ l rest => l :: rest.lexemes

def gaps : Division → List (List Char)
  | last gap => [gap]
  | piece gap _ rest => gap :: rest.gaps

/-- No lexeme starts inside a gap, and no literal could be longer. -/
def IsMaximal : Division → Prop
  | last gap => IsGap gap []
  | piece gap l rest =>
    IsGap gap (l.characters ++ rest.text) ∧ (∀ n, l = .literal n → n.IsLongest rest.text) ∧ rest.IsMaximal

/-- A division with more characters skipped at its start. -/
def after (cs : List Char) : Division → Division
  | last gap => last (cs ++ gap)
  | piece gap l rest => piece (cs ++ gap) l rest

section
variable {c : Char} {gap rest cs : List Char} {d : Division}

theorem isGap_nil (rest : List Char) : IsGap [] rest := fun _ hcs hne => absurd (List.suffix_nil.1 hcs) hne

theorem isGap_cons_iff : IsGap (c :: gap) rest ↔ Lexeme.first? (c :: (gap ++ rest)) = none ∧ IsGap gap rest := by
  rw [Lexeme.first?_eq_none_iff]
  constructor
  · intro h
    exact ⟨h (c :: gap) List.suffix_rfl (List.cons_ne_nil _ _),
      fun cs hcs => h cs (hcs.trans (List.suffix_cons c gap))⟩
  · rintro ⟨hc, hgap⟩ cs hcs hne
    rcases List.suffix_cons_iff.1 hcs with rfl | hcs
    · exact hc
    · exact hgap cs hcs hne

theorem after_nil (d : Division) : d.after [] = d := by
  cases d <;> rfl

theorem after_after (cs ds : List Char) (d : Division) : (d.after ds).after cs = d.after (cs ++ ds) := by
  cases d <;> simp [after]

@[simp] theorem text_after (cs : List Char) (d : Division) : (d.after cs).text = cs ++ d.text := by
  cases d <;> simp [after, text]

@[simp] theorem lexemes_after (cs : List Char) (d : Division) : (d.after cs).lexemes = d.lexemes := by
  cases d <;> rfl

theorem IsMaximal.after (hd : d.IsMaximal) (h : Lexeme.first? (c :: d.text) = none) : (d.after [c]).IsMaximal := by
  cases d with
  | last gap =>
    exact isGap_cons_iff.2 ⟨by simpa [text] using h, hd⟩
  | piece gap l rest => exact ⟨isGap_cons_iff.2 ⟨h, hd.1⟩, hd.2⟩

end

end Division

/-- The division that a scan finds with the alternatives in the given order. -/
def divide (order : List Alternative) (cs : List Char) : Division :=
  match cs with
  | [] => .last []
  | c :: rest =>
    match firstIn order (c :: rest) with
    | none => (divide order rest).after [c]
    | some l => .piece [] l (divide order ((c :: rest).drop l.characters.length))
termination_by cs.length
decreasing_by
  · simp
  · have := List.length_pos_iff.2 l.characters_ne_nil
    simp only [List.length_drop, List.length_cons]
    omega

section
variable {order : List Alternative} (horder : order.Perm Alternative.all)
include horder

theorem text_divide (cs : List Char) : (divide order cs).text = cs := by
  induction cs using divide.induct order with
  | case1 => rw [divide, Division.text]
  | case2 c rest hnone ih =>
    rw [divide, hnone]
    simp [ih]
  | case3 c rest l hl ih =>
    rw [divide, hl]
    rw [firstIn_eq horder] at hl
    simp only [Division.text, List.nil_append, ih]
    exact List.prefix_iff_eq_append.1 (Lexeme.prefix_of_first? hl)

theorem lexemes_divide (cs : List Char) : (divide order cs).lexemes = Lexeme.scan cs := by
  induction cs using divide.induct order with
  | case1 => rw [divide, Lexeme.scan, Division.lexemes]
  | case2 c rest hnone ih =>
    rw [divide, hnone]
    rw [firstIn_eq horder] at hnone
    rw [Lexeme.scan, hnone]
    simpa using ih
  | case3 c rest l hl ih =>
    rw [divide, hl]
    rw [firstIn_eq horder] at hl
    rw [Lexeme.scan, hl]
    exact congrArg (l :: ·) ih

theorem isMaximal_divide (cs : List Char) : (divide order cs).IsMaximal := by
  induction cs using divide.induct order with
  | case1 =>
    rw [divide]
    exact Division.isGap_nil []
  | case2 c rest hnone ih =>
    rw [divide, hnone]
    exact ih.after (by rw [text_divide horder, ← firstIn_eq horder, hnone])
  | case3 c rest l hl ih =>
    rw [divide, hl]
    rw [firstIn_eq horder] at hl
    have hcs : l.characters ++ (c :: rest).drop l.characters.length = c :: rest :=
      List.prefix_iff_eq_append.1 (Lexeme.prefix_of_first? hl)
    rw [← hcs] at hl
    refine ⟨Division.isGap_nil _, ?_, ih⟩
    rw [text_divide horder]
    exact Lexeme.first?_append_eq_some_iff.1 hl

theorem divide_gap {gap rest : List Char} (h : IsGap gap rest) :
    divide order (gap ++ rest) = (divide order rest).after gap := by
  induction gap with
  | nil => rw [List.nil_append, Division.after_nil]
  | cons c gap ih =>
    obtain ⟨hc, hgap⟩ := Division.isGap_cons_iff.1 h
    rw [List.cons_append, divide, firstIn_eq horder, hc]
    simp only [ih hgap, Division.after_after, List.singleton_append]

/-- There is only one maximal division of a text. -/
theorem divide_text {d : Division} (h : d.IsMaximal) : divide order d.text = d := by
  induction d with
  | last gap =>
    have hgap : divide order (gap ++ []) = (divide order []).after gap := divide_gap horder h
    rw [List.append_nil] at hgap
    rw [Division.text, hgap, divide, Division.after, List.append_nil]
  | piece gap l rest ih =>
    obtain ⟨hgap, hlongest, hrest⟩ := h
    have hl : Lexeme.first? (l.characters ++ rest.text) = some l := Lexeme.first?_append_eq_some_iff.2 hlongest
    have hpiece : divide order (l.characters ++ rest.text) = .piece [] l rest := by
      obtain ⟨c, cs, hcs⟩ := List.exists_cons_of_ne_nil l.characters_ne_nil
      rw [hcs, List.cons_append] at hl ⊢
      rw [divide, firstIn_eq horder, hl]
      simp only [← List.cons_append, ← hcs, List.drop_left, ih hrest]
    rw [Division.text, divide_gap horder hgap, hpiece, Division.after, List.append_nil]

end

/-! ## Tokens of spellings -/

namespace Literal

theorem splitDecimal_characters (n : Literal) :
    Numeral.splitDecimal Char.isDigit n.characters = some (⟨n.whole, n.fraction.getD [], false, []⟩, []) := by
  obtain ⟨whole, fraction, hne, hwhole, hfraction⟩ := n
  cases fraction with
  | none =>
    have hsplit := Numeral.splitDigits_eq_self (List.all_eq_true.1 hwhole)
    simp only [characters, List.append_nil, Numeral.splitDecimal,
      Numeral.splitMantissa_of_no_point hne (by simp) hsplit]
    rfl
  | some ds =>
    have hdigits := Numeral.splitDigits_eq_self (List.all_eq_true.1 hfraction)
    have hpoint : ∀ c ∈ ('.' :: ds).head?, c.isDigit = false := by simp
    have hsplit := Numeral.splitDigits_append (List.all_eq_true.1 hwhole) hpoint
    simp only [characters, Numeral.splitDecimal, Numeral.splitMantissa_of_point hne hsplit, hdigits]
    rfl

theorem isUnsigned_characters (n : Literal) : Numeral.IsUnsigned n.characters where
  plain c hc := by
    obtain ⟨us, vs, hsplit⟩ := List.append_of_mem hc
    exact (isDigit_or_point hsplit).imp_right fun h => .inl h.1
  digit := n.exists_characters

/-- A literal has the value that its spelling names. -/
theorem double?_spelling (n : Literal) : Numeral.double? n.spelling = some n.value := by
  have hread := Numeral.double?_of_splitDecimal n.isUnsigned_characters n.splitDecimal_characters false
  rw [spelling, value]
  simpa [Numeral.signed, Numeral.Parts.decimal, Double.signed] using hread

end Literal

/-- The token of a spelling: the one that is known by that name, or else the number that the spelling names. -/
def Token.ofSpelling? (spelling : String) : Option Token :=
  Token.named? spelling <|> (Numeral.double? spelling).map (Token.number · spelling)

theorem Token.named?_literal (n : Literal) : Token.named? n.spelling = none := by
  have heads : ∀ t ∈ Token.predefined, t.name.toList.head?.any (fun c => !c.isDigit) := by decide +kernel
  refine List.find?_eq_none.2 fun t ht hname => ?_
  obtain ⟨c, cs, hn, hc⟩ := n.exists_characters
  have hhead := heads t ht
  rw [of_decide_eq_true hname, Literal.spelling, String.toList_ofList, hn] at hhead
  simp [hc] at hhead

theorem Token.named?_symbol (s : Symbol) : Token.named? s.spelling = some s.token := by
  have named : ∀ s ∈ Symbol.all, Token.named? s.spelling = some s.token := by decide +kernel
  exact named s s.mem_all

theorem Lexeme.ofSpelling?_spelling (l : Lexeme) : Token.ofSpelling? l.spelling = some l.token := by
  cases l with
  | literal n =>
    have hspelling : (Lexeme.literal n).spelling = n.spelling := rfl
    rw [hspelling, Token.ofSpelling?, Token.named?_literal, n.double?_spelling]
    rfl
  | symbol s =>
    have hspelling : (Lexeme.symbol s).spelling = s.spelling := String.ofList_toList
    rw [hspelling, Token.ofSpelling?, Token.named?_symbol]
    rfl

/-! ## Characters in gaps -/

/-- The digits of all other scripts are in no lexeme. -/
theorem isForeign_of_isDecimalDigit {c : Char} (h : Text.isDecimalDigit c) (hc : ¬ c.isDigit) : IsForeign c :=
  isForeign_of_class (by decide +kernel) (by decide) h hc

/-- All of it falls into gaps. -/
theorem IsForeign.count_gaps {c : Char} (h : IsForeign c) (d : Division) : d.gaps.flatten.count c = d.text.count c := by
  induction d with
  | last gap => simp [Division.gaps, Division.text]
  | piece gap l rest ih =>
    have hl : l.characters.count c = 0 := List.count_eq_zero.2 (h.not_mem_characters l)
    simp [Division.gaps, Division.text, ih, hl]

/-! ## The scan -/

/-- A text has one maximal division into lexemes and gaps, its tokens are those of the spellings of these lexemes,
and a scan finds it in whatever order it looks for the alternatives. A character of a lexeme is a digit, the point
behind its first digits, or in a symbol that is spelled out; all others fall into gaps, digits of other scripts among
them. -/
theorem tokenize_division (text : String) :
    ∃ d : Division, (d.text = text.toList ∧ d.IsMaximal) ∧
      (∀ d' : Division, d'.text = text.toList → d'.IsMaximal → d' = d) ∧
      (tokenize text).map some = d.lexemes.map (Token.ofSpelling? ·.spelling) ∧
      (∀ order : List Alternative, order.Perm Alternative.all → divide order text.toList = d) ∧
      (∀ l ∈ d.lexemes, ∀ us c vs, l.characters = us ++ c :: vs →
        c.isDigit ∨ (c = '.' ∧ us ≠ [] ∧ us.all Char.isDigit) ∨ ∃ s, l = .symbol s) ∧
      (∀ c, IsForeign c → d.gaps.flatten.count c = text.toList.count c) ∧
      ∀ c, Text.isDecimalDigit c → ¬ c.isDigit → IsForeign c := by
  have hmaximal := isMaximal_divide (.refl Alternative.all) text.toList
  have htext := text_divide (.refl Alternative.all) text.toList
  have hlexemes := lexemes_divide (.refl Alternative.all) text.toList
  generalize divide Alternative.all text.toList = d at hmaximal htext hlexemes
  refine ⟨d, ⟨htext, hmaximal⟩, fun d' htext' hmaximal' => ?_, ?_, fun order horder => ?_,
    fun l _ us c vs h => ?_, fun c hc => ?_, fun c => isForeign_of_isDecimalDigit⟩
  · rw [← divide_text (.refl Alternative.all) hmaximal', htext', ← htext, divide_text (.refl _) hmaximal]
  · simp only [tokenize, ← hlexemes, List.map_map, Function.comp_def, Lexeme.ofSpelling?_spelling]
  · rw [← htext, divide_text horder hmaximal]
  · cases l with
    | symbol s => exact .inr (.inr ⟨s, rfl⟩)
    | literal n =>
      rcases Literal.isDigit_or_point h with hc | ⟨hc, rfl⟩
      · exact .inl hc
      · exact .inr (.inl ⟨hc, n.whole_ne_nil, n.whole_digits⟩)
  · rw [hc.count_gaps, htext]

end Reckoner
