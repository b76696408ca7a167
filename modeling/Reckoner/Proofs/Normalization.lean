import Reckoner.Proofs.Gaps
/-!
# Texts written again from their tokens

The names of the tokens of a text, written one after another with a blank between two numbers that meet, are a text
with the same tokens (`tokenize_normalize`): a symbol is recognised before anything (`Lexeme.first?_symbol`), and a
literal ends before a symbol and before a blank.
-/

namespace Reckoner

/-- The names of tokens in a row, two numbers kept apart by a blank. -/
def Token.joinNames : List Token → List Char
  | [] => []
  | t :: ts =>
    let rest := joinNames ts
    t.name.toList ++ if t.type = .number ∧ ts.head?.any (·.type = .number) then ' ' :: rest else rest

/-- A text without what is skipped in it. -/
def normalize (text : String) : String := String.ofList (Token.joinNames (tokenize text))

example : normalize " asinx(2.π, .5)tan 3 4." = "asin(2.π5)tan3 4." := by decide +kernel

namespace Lexeme

theorem name_token (l : Lexeme) : l.token.name.toList = l.characters := by
  rcases l with n | _ | _ | op | f | c
  · exact String.toList_ofList
  all_goals rfl

/-- A literal ends where the next token starts, if that is no number. -/
theorem endsLiteral_joinNames {ls : List Lexeme} (h : ¬ (ls.map token).head?.any (·.type = .number)) :
    EndsLiteral (Token.joinNames (ls.map token)) := by
  cases ls with
  | nil => exact endsLiteral_nil
  | cons l ls =>
    cases l with
    | literal n => exact absurd rfl h
    | symbol s =>
      rw [List.map_cons, Token.joinNames, name_token]
      exact endsLiteral_spelling s _

/-- Nothing is lost when the names of tokens are put in a row. -/
theorem scan_joinNames (ls : List Lexeme) : scan (Token.joinNames (ls.map token)) = ls := by
  induction ls with
  | nil => simp [Token.joinNames, scan]
  | cons l ls ih =>
    rw [List.map_cons, Token.joinNames, name_token]
    split
    · -- two numbers meet, and the blank is what ends the first
      have hl : scan l.characters = [l] := by
        have hfirst : first? (l.characters ++ []) = some l := first?_characters fun _ _ => endsLiteral_nil
        simpa [scan] using scan_cons hfirst
      rw [(isForeign_of_isBlank (by decide)).scan_append_cons, hl, ih, List.singleton_append]
    · next h =>
      rw [scan_cons (first?_characters fun n hn => endsLiteral_joinNames fun hnumber => h ⟨?_, hnumber⟩), ih]
      rw [hn]
      rfl

end Lexeme

/-- A text that is written again from the names of its tokens has the same tokens, so it has the same postfix form, is
complete if the text was, and comes to the same in every mode. Texts are written alike just if they have the same
tokens. -/
theorem tokenize_normalize (text : String) :
    tokenize (normalize text) = tokenize text ∧
    Postfix.ofTokens (tokenize (normalize text)) = Postfix.ofTokens (tokenize text) ∧
    isCompleteExpression (normalize text) = isCompleteExpression text ∧
    (∀ mode partially, evaluate mode partially (normalize text) = evaluate mode partially text) ∧
    ∀ other, normalize text = normalize other ↔ tokenize text = tokenize other := by
  have htokens : ∀ text, tokenize (normalize text) = tokenize text := fun text => by
    rw [tokenize, normalize, String.toList_ofList, tokenize, Lexeme.scan_joinNames]
  refine ⟨htokens text, by rw [htokens], by rw [isCompleteExpression, isCompleteExpression, htokens],
    fun mode partially => by rw [evaluate, evaluate, htokens], fun other => ⟨fun h => ?_, fun h => ?_⟩⟩
  · rw [← htokens text, h, htokens]
  · rw [normalize, normalize, h]

/-- Eight tokens among a letter, a comma, a point and blanks, of which only the blank between the numbers is kept. -/
theorem tokenize_normalize_of_gaps :
    let text := " asinx(2.π, .5)3 4."
    let tokens : List Token := [(Symbol.function .asin).token, Symbol.openGroup.token, .number (.ofNat 2) "2.",
      (Symbol.constant .pi).token, .number (.ofNat 5) "5", Symbol.closeGroup.token, .number (.ofNat 3) "3",
      .number (.ofNat 4) "4."]
    normalize text = "asin(2.π5)3 4." ∧ tokenize text = tokens ∧ tokenize "asin(2.π5)3 4." = tokens := by
  intro text tokens
  have hwritten : normalize text = "asin(2.π5)3 4." := by decide +kernel
  have htokens : tokenize text = tokens := by decide +kernel
  exact ⟨hwritten, htokens, hwritten ▸ (tokenize_normalize text).1.trans htokens⟩

end Reckoner
