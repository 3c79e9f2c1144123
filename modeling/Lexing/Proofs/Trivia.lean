import Lexing.Proofs.Grammar
import Lexing.Proofs.Progress

/-!
Trivia. Whitespace and comments separate the other tokens and do nothing else. Layout may be read
with the text behind it or before it (`significantAt_layout`), also when it stands at the end of a
comment (`significantAt_comment`).

In `Respaced` texts trivia stand in the same places, but not as the same trivia: where there is
layout or the rest of a line in one text, there is a single character of layout in the other. A
token that is no trivia does not see the difference in what follows it (`Standard.respaced`). The
one token that looks far ahead, a quote without a closing quote, sees every quote behind it in the
same state: neither a character of layout nor a line break leaves the character behind it escaped.
-/

namespace Lexing

theorem TokenKind.isTrivia_iff {k : TokenKind} :
    k.isTrivia = true ↔ k = .whitespace ∨ k = .comment := by
  cases k <;> simp [isTrivia]

theorem Position.after_of_trivia (p : Position) {l : Lexeme} (hk : l.kind.isTrivia = true) :
    p.after l = p.right l.span.length := by
  rcases TokenKind.isTrivia_iff.1 hk with hk | hk <;> simp [after, hk]

/-- The tokens that are no trivia. -/
def significant (tokens : List Token) : List Token :=
  tokens.filter fun t => !t.kind.isTrivia

/-- The tokens of a text that are no trivia, when the text starts at this position. -/
def significantAt (p : Position) (text : List Char) : List Token :=
  significant ({ rest := text, position := p } : Tokenizer).drain.1

theorem significant_tokenize (source : String) :
    significant (tokenize source) = significantAt .start source.toList := rfl

section SignificantAt

variable {l : Lexeme} {w text : List Char}

theorem significantAt_nil (p : Position) : significantAt p [] = [⟨.endOfInput, "", p⟩] := by
  rw [significantAt, Tokenizer.drain_of_rest_eq_nil rfl rfl]
  rfl

theorem significantAt_of_trivia (h : l.Standard) (hk : l.kind.isTrivia = true) (p : Position) :
    significantAt p (l.span ++ l.rest) = significantAt (p.right l.span.length) l.rest := by
  rw [significantAt, significant, Tokenizer.drain_of_standard h, List.filter_cons_of_neg (by simp [hk]),
    p.after_of_trivia hk]
  rfl

theorem significantAt_of_not_trivia (h : l.Standard) (hk : l.kind.isTrivia = false)
    (p : Position) :
    significantAt p (l.span ++ l.rest) =
      ⟨l.kind, String.ofList l.value, p⟩ :: significantAt (p.after l) l.rest := by
  rw [significantAt, significant, Tokenizer.drain_of_standard h, List.filter_cons_of_pos (by simp [hk])]
  rfl

/-! ## Layout and comments before a text -/

theorem significantAt_layout_of_stops (layout : ∀ c ∈ w, isLayout c = true)
    (stops : Stops isLayout text) (p : Position) :
    significantAt p (w ++ text) = significantAt (p.right w.length) text := by
  by_cases hmark : (∀ c ∈ w, isBlank c = true) ∧ ['/', '/'] <+: text
  · -- The same comment is read with the blanks and without them.
    obtain ⟨blank, more, rfl⟩ := hmark
    have line := HasToken.break_notMem_takeWhile more
    have hwith := significantAt_of_trivia
      (.comment blank line (stops_dropWhile (· ≠ '\n') more)) rfl p
    have hwithout := significantAt_of_trivia
      (.comment (List.forall_mem_nil _) line (stops_dropWhile (· ≠ '\n') more)) rfl
      (p.right w.length)
    simp only [List.append_assoc, List.cons_append, List.nil_append,
      List.takeWhile_append_dropWhile, List.length_append, Position.right_right] at hwith hwithout
    exact hwith.trans hwithout.symm
  · cases w with
    | nil => rfl
    | cons c w =>
      exact significantAt_of_trivia
        (.whitespace layout stops fun blank hrest => hmark ⟨blank, hrest⟩) rfl p

/-- Layout before a text only moves the text to the right. -/
theorem significantAt_layout (layout : ∀ c ∈ w, isLayout c = true) (text : List Char)
    (p : Position) :
    significantAt p (w ++ text) = significantAt (p.right w.length) text := by
  -- The text may start with layout of its own, which goes with the one before it.
  have hmore := HasToken.forall_mem_takeWhile isLayout text
  have hstops := stops_dropWhile isLayout text
  have hall : ∀ c ∈ w ++ text.takeWhile isLayout, isLayout c = true :=
    List.forall_mem_append.2 ⟨layout, hmore⟩
  have hjoined := significantAt_layout_of_stops hall hstops p
  have hapart := significantAt_layout_of_stops hmore hstops (p.right w.length)
  rw [List.append_assoc, List.length_append, ← Position.right_right, ← hapart,
    List.takeWhile_append_dropWhile] at hjoined
  exact hjoined

/-- A comment only moves the layout at the end of its line to the right. -/
theorem significantAt_comment {blanks body : List Char} (blank : ∀ c ∈ blanks, isBlank c = true)
    (line : '\n' ∉ body) (layout : ∀ c ∈ w, isLayout c = true) (stops : Stops (· ≠ '\n') text)
    (p : Position) :
    significantAt p (blanks ++ '/' :: '/' :: body ++ (w ++ text)) =
      significantAt (p.right (blanks ++ '/' :: '/' :: body).length) (w ++ text) := by
  have hw : '\n' ∉ w := fun hmem => absurd (layout _ hmem) (by decide)
  have hcomment := significantAt_of_trivia
    (.comment blank (List.not_mem_append line hw) stops) rfl p
  rw [significantAt_layout layout, Position.right_right, ← List.length_append]
  simpa using hcomment

end SignificantAt

/-! ## Quotes behind layout -/

namespace QuotesEscaped

variable {escaped : Bool} {c : Char} {w text : List Char}

/-- Behind a character that is no backslash quotes are in the same state, whatever stands before. -/
theorem cons_iff_of_ne (hc : c ≠ '\\') (hquote : c ≠ '"') :
    QuotesEscaped escaped (c :: text) ↔ QuotesEscaped false text := by
  simp [quotesEscaped_cons_iff, hc, hquote]

theorem layout_cons_iff (hc : isLayout c = true) :
    QuotesEscaped escaped (c :: text) ↔ QuotesEscaped false text := by
  apply cons_iff_of_ne
  · rintro rfl
    contradiction
  · rintro rfl
    contradiction

theorem of_layout (hne : w ≠ []) (layout : ∀ c ∈ w, isLayout c = true)
    (h : QuotesEscaped escaped (w ++ text)) : QuotesEscaped false text := by
  induction w generalizing escaped with
  | nil => exact absurd rfl hne
  | cons c w ih =>
    obtain ⟨hc, hw⟩ := List.forall_mem_cons.1 layout
    have h := (layout_cons_iff hc).1 h
    by_cases hnil : w = []
    · rwa [hnil] at h
    · exact ih hnil hw h

/-- At the end of a line it does not matter whether the line break is escaped. -/
theorem of_stops (stops : Stops (· ≠ '\n') text) (h : QuotesEscaped escaped text) :
    QuotesEscaped false text := by
  cases text with
  | nil => exact quotesEscaped_nil false
  | cons c text =>
    have hc : c = '\n' := by simpa using stops_cons_iff.1 stops
    subst hc
    rw [cons_iff_of_ne (by decide) (by decide)] at h ⊢
    exact h

end QuotesEscaped

/-! ## Other trivia in the same places -/

/-- A class of characters has no layout in it if it has none of the three characters. -/
theorem eq_false_of_isLayout {p : Char → Bool} (h : [' ', '\t', '\r'].any p = false) {c : Char}
    (hc : isLayout c = true) : p c = false := by
  simpa using List.any_eq_false.1 h c (by simpa using isLayout_iff.1 hc)

/-- The second text is the first one with a single character of layout in the place of other layout,
or of what is left of a line. -/
inductive Respaced : List Char → List Char → Prop
  | nil : Respaced [] []
  | keep {text text'} (c : Char) (h : Respaced text text') : Respaced (c :: text) (c :: text')
  | layout {w d text text'} (ne_nil : w ≠ []) (layout : ∀ c ∈ w, isLayout c = true)
      (single : isLayout d = true) (h : Respaced text text') : Respaced (w ++ text) (d :: text')
  | lineEnd {w d text text'} (stops : Stops (· ≠ '\n') text) (single : isLayout d = true)
      (h : Respaced text text') : Respaced (w ++ text) (d :: text')

namespace Respaced

variable {text text' : List Char}

theorem append_left (h : Respaced text text') (w : List Char) :
    Respaced (w ++ text) (w ++ text') := by
  induction w with
  | nil => exact h
  | cons c w ih => exact ih.keep c

/-- What starts the second text and has no layout starts the first one. -/
theorem prefix_of_prefix {w : List Char} (h : Respaced text text')
    (hw : ∀ c ∈ w, isLayout c = false) (hstart : w <+: text') : w <+: text := by
  induction w generalizing text text' with
  | nil => exact List.nil_prefix
  | cons c w ih =>
    obtain ⟨hc, hw⟩ := List.forall_mem_cons.1 hw
    cases h with
    | nil => exact hstart
    | keep d h =>
      obtain ⟨rfl, hmore⟩ := List.cons_prefix_cons.1 hstart
      exact List.cons_prefix_cons.2 ⟨rfl, ih h hw hmore⟩
    | layout _ _ single | lineEnd _ single =>
      rw [(List.cons_prefix_cons.1 hstart).1, single] at hc
      contradiction

theorem stops {p : Char → Bool} (h : Respaced text text')
    (hp : [' ', '\t', '\r'].any p = false) (hstops : Stops p text) : Stops p text' := by
  cases h with
  | nil => exact stops_nil p
  | keep c => exact stops_cons_iff.2 (stops_cons_iff.1 hstops)
  | layout _ _ single | lineEnd _ single => exact stops_cons_iff.2 (eq_false_of_isLayout hp single)

theorem quotesEscaped (h : Respaced text text') {escaped : Bool}
    (hquotes : QuotesEscaped escaped text) : QuotesEscaped escaped text' := by
  induction h generalizing escaped with
  | nil => exact hquotes
  | keep c _ ih =>
    obtain ⟨hc, hquotes⟩ := quotesEscaped_cons_iff.1 hquotes
    exact quotesEscaped_cons_iff.2 ⟨hc, ih hquotes⟩
  | layout ne_nil layout single _ ih =>
    exact (QuotesEscaped.layout_cons_iff single).2 (ih (hquotes.of_layout ne_nil layout))
  | lineEnd stops single _ ih =>
    exact (QuotesEscaped.layout_cons_iff single).2 (ih (hquotes.of_append.of_stops stops))

end Respaced

namespace Lexeme

open Lexicon

variable {l : Lexeme} {rest' : List Char}

/-- No symbol has layout in it, nor has the mark of a comment. -/
theorem any_contains_layout {table : List (List Char)}
    (h : ∀ s ∈ table, s ∈ ['/', '/'] :: longSymbols) (c : Char) :
    [' ', '\t', '\r'].any (fun d => table.contains [c, d]) = false := by
  have hall : ∀ s ∈ ['/', '/'] :: longSymbols, s.all (fun d => !isLayout d) = true := by decide
  rw [List.any_eq_false]
  intro d hd hcontains
  have hnone := hall _ (h _ (List.contains_iff_mem.1 hcontains))
  have hlayout : isLayout d = true := isLayout_iff.2 (by simpa using hd)
  simp [hlayout] at hnone

/-- A token that is no trivia stays the same token when there are other trivia behind it. -/
theorem Standard.respaced (h : l.Standard) (hk : l.kind.isTrivia = false)
    (hrest : Respaced l.rest rest') : Standard { l with rest := rest' } := by
  cases h with
  | comment | whitespace => contradiction
  | newline => exact .newline
  | keyword alpha word stops mem => exact .keyword alpha word (hrest.stops rfl stops) mem
  | name alpha word stops notMem => exact .name alpha word (hrest.stops rfl stops) notMem
  | label alpha word stops => exact .label alpha word (hrest.stops rfl stops)
  | integer digits stops noFraction =>
    refine .integer digits (hrest.stops rfl stops) fun d hd => ?_
    cases hlayout : isLayout d with
    | true => exact eq_false_of_isLayout rfl hlayout
    | false =>
      have hmore : ∀ c ∈ ['.', d], isLayout c = false :=
        List.forall_mem_cons.2 ⟨rfl, by simpa using hlayout⟩
      exact noFraction d (hrest.prefix_of_prefix hmore hd)
  | fraction digits decimals stops =>
    exact .fraction digits decimals (hrest.stops rfl stops)
  | string closed quotes => exact .string closed quotes
  | pair mem => exact .pair mem
  | @single c _ mem noPair =>
    exact .single mem (hrest.stops (any_contains_layout (by simp) c) noPair)
  | @unknown c _ mark foreign noPair noLabel noLiteral =>
    refine .unknown mark foreign ?_ ?_ ?_
    · exact hrest.stops (any_contains_layout (by simp +contextual) c) noPair
    · exact fun hc => hrest.stops rfl (noLabel hc)
    · exact fun hc => hrest.quotesEscaped (noLiteral hc)

end Lexeme

/-- Whatever trivia follow it, a token that is no trivia is read. -/
theorem significantAt_respaced {l : Lexeme} (h : l.Standard) (hk : l.kind.isTrivia = false)
    {rest' : List Char} (hrest : Respaced l.rest rest') (p : Position) :
    significantAt p (l.span ++ rest') =
      ⟨l.kind, String.ofList l.value, p⟩ :: significantAt (p.after l) rest' :=
  significantAt_of_not_trivia (h.respaced hk hrest) hk p

end Lexing
