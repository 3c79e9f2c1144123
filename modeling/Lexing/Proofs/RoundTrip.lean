import Lexing.Proofs.Grammar
import Lexing.Proofs.Progress

/-!
Writing string literals and reading them back. The body of a literal is read in pairs: a backslash
takes the character after it, whatever that is. A body is closed (`EscapeClosed`) when no quote and no
backslash stays outside the pairs, and a text in quotes is a literal with that text as its value if
and only if the text is closed (`Lexeme.quote_iff`), whatever follows.

Any text can be written as a closed one (`Literal.escape`), and it is found again by leaving out the
backslash of each pair (`Literal.unescape`).
-/

namespace Lexing

/-- The text is the body of a literal, read in pairs of a backslash and the character after it. -/
inductive EscapeClosed : List Char → Prop
  | nil : EscapeClosed []
  | plain {c v} (quote : c ≠ '"') (slash : c ≠ '\\') (body : EscapeClosed v) : EscapeClosed (c :: v)
  | pair (c) {v} (body : EscapeClosed v) : EscapeClosed ('\\' :: c :: v)

namespace EscapeClosed

variable {v : List Char}

theorem quotesEscaped (h : EscapeClosed v) :
    escapedAfter false v = false ∧ QuotesEscaped false v := by
  induction h with
  | nil => exact ⟨rfl, quotesEscaped_nil false⟩
  | @plain c v quote slash _ ih =>
    obtain ⟨hafter, hquotes⟩ := ih
    have hstate : (!false && decide (c = '\\')) = false := by simp [slash]
    constructor
    · rw [escapedAfter_cons, hstate, hafter]
    · rw [quotesEscaped_cons_iff, hstate]
      exact ⟨fun hc => quote hc.2, hquotes⟩
  | @pair c v _ ih =>
    obtain ⟨hafter, hquotes⟩ := ih
    refine ⟨hafter, quotesEscaped_cons_iff.2 ⟨by decide, ?_⟩⟩
    -- The character after the backslash is escaped and leaves nothing escaped behind it.
    exact quotesEscaped_cons_iff.2 ⟨by simp, hquotes⟩

theorem of_quotesEscaped {v : List Char} (hafter : escapedAfter false v = false)
    (hquotes : QuotesEscaped false v) : EscapeClosed v := by
  match v with
  | [] => exact .nil
  | c :: v =>
    obtain ⟨hc, hv⟩ := quotesEscaped_cons_iff.1 hquotes
    by_cases hslash : c = '\\'
    · subst hslash
      cases v with
      | nil => contradiction
      | cons d v => exact .pair d (of_quotesEscaped hafter (quotesEscaped_cons_iff.1 hv).2)
    · have hstate : (!false && decide (c = '\\')) = false := by simp [hslash]
      rw [escapedAfter_cons, hstate] at hafter
      rw [hstate] at hv
      exact .plain (fun hquote => hc ⟨rfl, hquote⟩) hslash (of_quotesEscaped hafter hv)
termination_by v.length

/-- In a closed text a search for the closing quote ends with nothing escaped and no quote found. -/
theorem iff_quotesEscaped :
    EscapeClosed v ↔ escapedAfter false v = false ∧ QuotesEscaped false v :=
  ⟨quotesEscaped, fun h => of_quotesEscaped h.1 h.2⟩

instance : DecidablePred EscapeClosed := fun v =>
  decidable_of_iff (escapedAfter false v = false ∧ closingQuote? false v = none)
    (by rw [closingQuote?_eq_none_iff, iff_quotesEscaped])

end EscapeClosed

/-! ## Texts in quotes -/

namespace Lexeme

variable {v r : List Char}

theorem lexeme_quote (h : EscapeClosed v) :
    Lexicon.standard.lexeme ('"' :: v ++ '"' :: r) = ⟨.string, v, '"' :: v ++ ['"'], r⟩ := by
  obtain ⟨closed, quotes⟩ := h.quotesEscaped
  have hlexeme := (@Standard.string v r closed quotes).lexeme_eq
  simpa using hlexeme

/-- A literal is a closed text in quotes. -/
theorem Standard.escapeClosed {l : Lexeme} (h : l.Standard) (hk : l.kind = .string) :
    EscapeClosed l.value := by
  cases h with
  | string closed quotes => exact .of_quotesEscaped closed quotes
  | comment | whitespace | newline | keyword | name | label | integer | fraction | pair | single
  | unknown => contradiction

/-- A text in quotes starts with a literal of which it is the value if and only if it is closed. -/
theorem quote_iff :
    ((Lexicon.standard.lexeme ('"' :: v ++ '"' :: r)).kind = .string ∧
      (Lexicon.standard.lexeme ('"' :: v ++ '"' :: r)).value = v) ↔ EscapeClosed v := by
  constructor
  · rintro ⟨hk, hv⟩
    rw [← hv]
    exact (standard_lexeme (by simp)).escapeClosed hk
  · intro h
    rw [lexeme_quote h]
    exact ⟨rfl, rfl⟩

end Lexeme

/-! ## Any text as a literal -/

namespace Literal

/-- The text with a backslash before each quote and each backslash. -/
def escape : List Char → List Char
  | [] => []
  | c :: u => if c = '"' ∨ c = '\\' then '\\' :: c :: escape u else c :: escape u

/-- The text without the backslash of each pair. -/
def unescape : List Char → List Char
  | [] => []
  | '\\' :: c :: v => c :: unescape v
  | c :: v => c :: unescape v

theorem unescape_cons {c : Char} (h : c ≠ '\\') (v : List Char) :
    unescape (c :: v) = c :: unescape v := by
  rw [unescape]
  intro d w hc
  exact absurd hc h

theorem escapeClosed_escape (u : List Char) : EscapeClosed (escape u) := by
  induction u with
  | nil => exact .nil
  | cons c u ih =>
    rw [escape]
    split
    · exact .pair c ih
    · rename_i hc
      obtain ⟨hquote, hslash⟩ := not_or.1 hc
      exact .plain hquote hslash ih

theorem unescape_escape (u : List Char) : unescape (escape u) = u := by
  induction u with
  | nil => rfl
  | cons c u ih =>
    rw [escape]
    split
    · rw [unescape, ih]
    · rename_i hc
      rw [unescape_cons (not_or.1 hc).2, ih]

end Literal

/-- A closed text in quotes is a single literal up to the end of the source. -/
theorem tokenize_quote {v : String} (h : EscapeClosed v.toList) :
    tokenize ("\"" ++ v ++ "\"") =
      [⟨.string, v, ⟨1, 1⟩⟩, ⟨.endOfInput, "", ⟨1, v.length + 3⟩⟩] := by
  let t := Tokenizer.load {} ("\"" ++ v ++ "\"")
  have hrest : t.rest = '"' :: v.toList ++ ['"'] := by simp [t, Tokenizer.load]
  have hlexeme : t.lexicon.lexeme t.rest = ⟨.string, v.toList, '"' :: v.toList ++ ['"'], []⟩ := by
    rw [hrest]
    exact Lexeme.lexeme_quote h
  have htoken : t.nextToken.1 = ⟨.string, v, ⟨1, 1⟩⟩ := by
    show (⟨(t.lexicon.lexeme t.rest).kind, String.ofList (t.lexicon.lexeme t.rest).value, _⟩ :
      Token) = _
    rw [hlexeme, String.ofList_toList]
    rfl
  have hafter : t.position.after (t.lexicon.lexeme t.rest) = ⟨1, v.length + 3⟩ := by
    have hlength : ('"' :: v.toList ++ ['"']).length = v.length + 2 := by
      simp [← String.length_toList]
    rw [hlexeme, Position.after, if_neg (by simp), hlength]
    show (⟨1, 1 + (v.length + 2)⟩ : Position) = _
    rw [Nat.add_comm]
  have hdrain := Tokenizer.drain_of_rest_lexeme_eq_nil (t := t) rfl (by simp [hrest])
    (by rw [hlexeme])
  rwa [htoken, hafter] at hdrain

/-- A text in quotes is read as a literal with that text as its value if and only if it is closed,
whatever follows the second quote. Every text, escaped and in quotes, is a single literal up to the
end of the source, and the text is found again by taking the escapes out of the value. -/
theorem tokenize_quote_iff :
    (∀ v r : String,
      (∃ token, (tokenize ("\"" ++ v ++ "\"" ++ r)).head? = some token ∧ token.kind = .string ∧
        token.value = v) ↔ EscapeClosed v.toList) ∧
      ∀ u : String,
        let value := String.ofList (Literal.escape u.toList)
        tokenize ("\"" ++ value ++ "\"") =
            [⟨.string, value, ⟨1, 1⟩⟩, ⟨.endOfInput, "", ⟨1, value.length + 3⟩⟩] ∧
          Literal.unescape value.toList = u.toList := by
  constructor
  · intro v r
    have htext : ("\"" ++ v ++ "\"" ++ r).toList = '"' :: v.toList ++ '"' :: r.toList := by simp
    have hvalue (l : List Char) : String.ofList l = v ↔ l = v.toList := by
      rw [← String.toList_inj, String.toList_ofList]
    rw [← Lexeme.quote_iff (r := r.toList), tokenize, Lexicon.head?_tokenize, htext]
    simp [hvalue]
  · intro u value
    have hvalue : value.toList = Literal.escape u.toList := String.toList_ofList
    constructor
    · exact tokenize_quote (hvalue ▸ Literal.escapeClosed_escape u.toList)
    · rw [hvalue]
      exact Literal.unescape_escape u.toList

example : ¬EscapeClosed "a\\\\\"".toList ∧ EscapeClosed "a\\\\\\\"".toList := by decide

end Lexing
