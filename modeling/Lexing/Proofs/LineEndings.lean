import Lexing.Proofs.LineBreaks
import Lexing.Proofs.Trivia

/-!
Line endings. A text may end its lines with a line break alone, or with a carriage return before it
(`withReturns`). The carriage return is layout: it stands as whitespace of its own, or at the end of
other whitespace, or in the value of a comment. The tokens that are no trivia are the same for both
line endings, and only the line breaks themselves stand one column further to the right
(`tokenize_withReturns`).

A literal that goes over a line break is the exception, since the carriage return is then a part of
its value.
-/

namespace Lexing

/-- The text with a carriage return before each line break. -/
def withReturns (text : List Char) : List Char :=
  text.flatMap fun c => if c = '\n' then ['\r', '\n'] else [c]

/-- The token in a text with carriage returns before the line breaks. -/
def Token.afterReturn (t : Token) : Token :=
  if t.kind = .newline then { t with position := t.position.right 1 } else t

section WithReturns

variable {w text : List Char}

theorem withReturns_append (w text : List Char) :
    withReturns (w ++ text) = withReturns w ++ withReturns text :=
  List.flatMap_append

theorem withReturns_eq_self (h : '\n' ∉ w) : withReturns w = w := by
  induction w with
  | nil => rfl
  | cons c w ih =>
    have hc : c ≠ '\n' := (List.ne_of_not_mem_cons h).symm
    have hw : '\n' ∉ w := List.not_mem_of_not_mem_cons h
    rw [withReturns, List.flatMap_cons, if_neg hc, ← withReturns, ih hw]
    rfl

theorem respaced_withReturns (text : List Char) : Respaced text (withReturns text) := by
  induction text with
  | nil => exact .nil
  | cons c text ih =>
    by_cases hc : c = '\n'
    · subst hc
      exact @Respaced.lineEnd [] '\r' _ _ (stops_cons_iff.2 rfl) rfl (ih.keep '\n')
    · rw [withReturns, List.flatMap_cons, if_neg hc]
      exact ih.keep c

end WithReturns

/-! ## The tokens that are no trivia -/

namespace Lexeme

variable {l : Lexeme} {p : Position}

theorem Standard.break_notMem_of_string (h : l.Standard) (hk : l.kind = .string)
    (hvalue : '\n' ∉ l.value) : '\n' ∉ l.span := by
  rw [← List.count_eq_zero] at hvalue ⊢
  rw [h.count_of_string hk, hvalue]

theorem Standard.break_notMem_of_trivia (h : l.Standard) (hk : l.kind.isTrivia = true) :
    '\n' ∉ l.span := by
  rcases TokenKind.isTrivia_iff.1 hk with hk | hk
  · exact h.break_notMem (by simp [hk]) (by simp [hk])
  · exact h.break_notMem (by simp [hk]) (by simp [hk])

/-- At a line break the carriage return is read as whitespace. -/
theorem Standard.newline_withReturns (h : l.Standard) (hk : l.kind = .newline) :
    significantAt p (withReturns (l.span ++ l.rest)) =
      ⟨l.kind, String.ofList l.value, p.right 1⟩ ::
        significantAt (p.after l) (withReturns l.rest) := by
  have hspan := h.span_of_newline hk
  have htext : withReturns (l.span ++ l.rest) = ['\r'] ++ (l.span ++ withReturns l.rest) := by
    rw [hspan]
    rfl
  have hafter : (p.right 1).after l = p.after l := by
    rw [Position.after, if_pos hk, Position.after, if_pos hk]
    rfl
  rw [htext, significantAt_layout (List.forall_mem_singleton.2 rfl), List.length_singleton,
    significantAt_respaced h (by rw [hk]; rfl) (respaced_withReturns l.rest), hafter]

/-- Behind a comment the carriage return is read as its last character. -/
theorem Standard.comment_withReturns (h : l.Standard) (hk : l.kind = .comment) :
    significantAt p (l.span ++ withReturns l.rest) =
      significantAt (p.right l.span.length) (withReturns l.rest) := by
  obtain ⟨blanks, hspan, blank, line, stops⟩ := h.of_comment hk
  rw [hspan]
  cases hrest : l.rest with
  | nil => exact significantAt_comment blank line (List.forall_mem_nil _) (stops_nil _) p
  | cons c more =>
    rw [hrest, stops_cons_iff] at stops
    have hc : c = '\n' := by simpa using stops
    have hreturn : ∀ d ∈ ['\r'], isLayout d = true := List.forall_mem_singleton.2 rfl
    subst hc
    exact significantAt_comment blank line hreturn (stops_cons_iff.2 rfl) p

theorem Standard.trivia_withReturns (h : l.Standard) (hk : l.kind.isTrivia = true) :
    significantAt p (l.span ++ withReturns l.rest) =
      significantAt (p.right l.span.length) (withReturns l.rest) := by
  rcases TokenKind.isTrivia_iff.1 hk with hk | hk
  · obtain ⟨hspan, -, layout, -⟩ := h.of_whitespace hk
    rw [hspan]
    exact significantAt_layout layout _ p
  · exact h.comment_withReturns hk

end Lexeme

/-- In a text in which no literal goes over a line break, carriage returns before the line breaks
move no token but the line breaks. -/
theorem significantAt_withReturns (text : List Char) (p : Position)
    (h : ∀ token ∈ significantAt p text, token.kind = .string → '\n' ∉ token.value.toList) :
    significantAt p (withReturns text) = (significantAt p text).map Token.afterReturn := by
  induction text using Lexeme.standard_induction generalizing p with
  | nil =>
    rw [withReturns, List.flatMap_nil, significantAt_nil]
    rfl
  | token l hl ih =>
    by_cases htrivia : l.kind.isTrivia = true
    · rw [significantAt_of_trivia hl htrivia] at h ⊢
      rw [← ih _ h, withReturns_append, withReturns_eq_self (hl.break_notMem_of_trivia htrivia),
        hl.trivia_withReturns htrivia]
    · rw [Bool.not_eq_true] at htrivia
      rw [significantAt_of_not_trivia hl htrivia] at h ⊢
      obtain ⟨hfirst, hmore⟩ := List.forall_mem_cons.1 h
      rw [List.map_cons, ← ih _ hmore]
      by_cases hn : l.kind = .newline
      · rw [hl.newline_withReturns hn, Token.afterReturn, if_pos hn]
      · have hbreak : '\n' ∉ l.span := by
          by_cases hs : l.kind = .string
          · exact hl.break_notMem_of_string hs (by simpa using hfirst hs)
          · exact hl.break_notMem hn hs
        rw [withReturns_append, withReturns_eq_self hbreak,
          significantAt_respaced hl htrivia (respaced_withReturns l.rest), Token.afterReturn,
          if_neg hn]

/-! ## Strict reading -/

theorem find?_unknown_significant (tokens : List Token) :
    (significant tokens).find? (·.kind = .unknown) = tokens.find? (·.kind = .unknown) := by
  rw [significant, List.find?_filter]
  congr 1
  funext token
  cases token.kind <;> rfl

theorem find?_unknown_afterReturn (tokens : List Token) :
    (tokens.map Token.afterReturn).find? (·.kind = .unknown) =
      tokens.find? (·.kind = .unknown) := by
  induction tokens with
  | nil => rfl
  | cons token tokens ih =>
    rw [List.map_cons, List.find?_cons, List.find?_cons, ih, Token.afterReturn]
    by_cases hk : token.kind = .newline
    · simp [hk]
    · rw [if_neg hk]

/-- Line breaks with and without carriage returns before them give the same tokens, trivia apart, in
sources in which no literal goes over a line break. Only the columns of the line breaks grow by one.
Strict reading refuses both sources with the same error at the same place, or neither. -/
theorem tokenize_withReturns (source : String)
    (h : ∀ token ∈ tokenize source, token.kind = .string → '\n' ∉ token.value.toList) :
    let source' := String.ofList (withReturns source.toList)
    significant (tokenize source') = (significant (tokenize source)).map Token.afterReturn ∧
      ∀ d, tokenizeStrict source' = .error d ↔ tokenizeStrict source = .error d := by
  intro source'
  have hsame : significant (tokenize source') =
      (significant (tokenize source)).map Token.afterReturn := by
    rw [significant_tokenize, significant_tokenize, String.toList_ofList]
    exact significantAt_withReturns _ _ fun token hmem => h token (List.mem_filter.1 hmem).1
  have hfind : (tokenize source').find? (·.kind = .unknown) =
      (tokenize source).find? (·.kind = .unknown) := by
    rw [← find?_unknown_significant, hsame, find?_unknown_afterReturn, find?_unknown_significant]
  refine ⟨hsame, fun d => ?_⟩
  rw [tokenizeStrict_eq, tokenizeStrict_eq, hfind]
  cases (tokenize source).find? (·.kind = .unknown) <;> simp

/-- The first quote stays open, since the second one is escaped. The backslash at the end of its
line takes the line break with it, or the carriage return before the line break. -/
theorem tokenize_withReturns_of_openQuote :
    let source := "x //c\n\"\\\n\\\"  \n"
    let source' := String.ofList (withReturns source.toList)
    (∀ token ∈ tokenize source, token.kind = .string → '\n' ∉ token.value.toList) ∧
      tokenizeStrict source' = .error ⟨.unterminatedString, ⟨2, 1⟩⟩ ∧
      significant (tokenize source') = (significant (tokenize source)).map Token.afterReturn := by
  intro source source'
  have h : ∀ token ∈ tokenize source, token.kind = .string → '\n' ∉ token.value.toList := by
    decide +kernel
  obtain ⟨hsame, hstrict⟩ := tokenize_withReturns source h
  exact ⟨h, (hstrict _).2 (by decide +kernel), hsame⟩

end Lexing
