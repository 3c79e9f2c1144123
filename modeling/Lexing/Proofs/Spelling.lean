import Lexing.Proofs.Case
import Lexing.Proofs.Progress

/-!
Tokens on their own. From its kind and its value a token can be written out again: with quotes
around a literal, a mark before a comment, and a line break for a newline token. What stood around
the token in its source is left out, and with it the case of words and the blanks before comments.

Read as a source, this spelling is the same token and nothing else (`tokenize_spelling`): no token
of the grammar needs the text behind it to be what it is, and a word in lower case stays what it is.
-/

namespace Lexing

/-- The text of a token that has this kind and this value and stands alone. -/
def TokenKind.spell : TokenKind → List Char → List Char
  | string, value => '"' :: value ++ ['"']
  | comment, value => '/' :: '/' :: value
  | newline, _ => ['\n']
  | _, value => value

/-- The token written out. -/
def Token.spelling (t : Token) : String :=
  String.ofList (t.kind.spell t.value.toList)

namespace Lexeme

variable {l : Lexeme}

/-- The token written out, with nothing behind it. -/
def alone (l : Lexeme) : Lexeme :=
  ⟨l.kind, l.value, l.kind.spell l.value, []⟩

/-- A word at the end of a text is a word in lower case as well. -/
theorem Standard.lower_word {kind : TokenKind} {w : List Char}
    (h : Standard ⟨kind, lowered w, w, []⟩) : Standard ⟨kind, lowered w, lowered w, []⟩ := by
  have hlower := h.lower
  rw [Lexeme.lower, lowered_lowered] at hlower
  exact hlower

/-- A token of the grammar is one on its own as well. -/
theorem Standard.alone (h : l.Standard) : l.alone.Standard := by
  cases h with
  | comment _ line =>
    exact @Standard.comment [] _ _ (List.forall_mem_nil _) line (stops_nil _)
  | whitespace layout => exact .whitespace layout (stops_nil _) (by simp)
  | newline => exact .newline
  | keyword alpha word _ mem =>
    exact Standard.lower_word (.keyword alpha word (stops_nil _) mem)
  | name alpha word _ notMem =>
    exact Standard.lower_word (.name alpha word (stops_nil _) notMem)
  | label alpha word =>
    exact Standard.lower_word (.label alpha word (stops_nil _))
  | integer digits => exact .integer digits (stops_nil _) (by simp)
  | fraction digits decimals => exact .fraction digits decimals (stops_nil _)
  | string closed quotes => exact .string closed quotes
  | pair mem => exact .pair mem
  | single mem => exact .single mem (stops_nil _)
  | unknown mark foreign =>
    refine .unknown mark foreign (stops_nil _) ?_ ?_
    · exact fun _ => stops_nil _
    · exact fun _ => quotesEscaped_nil false

end Lexeme

/-- A source that is a single token of the grammar. -/
theorem tokenize_of_standard {source : String} {l : Lexeme} (hl : l.Standard) (hr : l.rest = [])
    (hs : source.toList = l.span) :
    tokenize source =
      [⟨l.kind, String.ofList l.value, .start⟩, ⟨.endOfInput, "", Position.start.after l⟩] := by
  have hdrain := Tokenizer.drain_of_standard hl .start
  have hend := Tokenizer.drain_of_rest_eq_nil
    (t := { rest := [], position := Position.start.after l }) rfl rfl
  rw [hr, List.append_nil, ← hs, hend] at hdrain
  exact hdrain

theorem Position.start_after (l : Lexeme) :
    start.after l = if l.kind = .newline then ⟨2, 1⟩ else ⟨1, l.span.length + 1⟩ := by
  rw [Position.after, right, start, Nat.add_comm]
  rfl

/-- A token of a source, written out and read as a source of its own, is the same token at the start
of the text, and only the end of input follows. -/
theorem tokenize_spelling (source : String) {token : Token} (h : token ∈ tokenize source)
    (hend : token.kind ≠ .endOfInput) :
    tokenize token.spelling =
      [⟨token.kind, token.value, ⟨1, 1⟩⟩,
        ⟨.endOfInput, "",
          if token.kind = .newline then ⟨2, 1⟩ else ⟨1, token.spelling.length + 1⟩⟩] := by
  obtain ⟨u, hu, rfl⟩ := Tokenizer.exists_of_mem_drain h
  have hlexicon : u.lexicon = .standard := hu
  have hne : u.rest ≠ [] := mt Tokenizer.kind_nextToken_iff.2 hend
  have hreads := u.reads_nextToken
  rw [hlexicon] at hreads
  have hkind : u.nextToken.1.kind = (Lexicon.standard.lexeme u.rest).kind := hreads.kind
  have hvalue : u.nextToken.1.value = String.ofList (Lexicon.standard.lexeme u.rest).value := by
    rw [← hreads.value, String.ofList_toList]
  have halone := (Lexeme.standard_lexeme hne).alone
  have hspan : u.nextToken.1.spelling.toList = (Lexicon.standard.lexeme u.rest).alone.span := by
    simp [Token.spelling, hkind, hvalue, Lexeme.alone]
  rw [tokenize_of_standard halone rfl hspan, Position.start_after, ← String.length_toList, hspan,
    hkind, hvalue]
  rfl

/-- The comment has lost the tab before it, and the line break behind it. -/
theorem tokenize_spelling_of_comment :
    let source := "IF :Ab\t//é\n"
    let token : Token := ⟨.comment, "é", ⟨1, 7⟩⟩
    token ∈ tokenize source ∧ token.kind ≠ .endOfInput ∧ token.spelling = "//é" ∧
      tokenize token.spelling = [⟨.comment, "é", ⟨1, 1⟩⟩, ⟨.endOfInput, "", ⟨1, 4⟩⟩] := by
  intro source token
  have hmem : token ∈ tokenize source := by decide +kernel
  have hend : token.kind ≠ .endOfInput := by decide
  have hspelling : token.spelling = "//é" := by decide +kernel
  refine ⟨hmem, hend, hspelling, (tokenize_spelling source hmem hend).trans ?_⟩
  rw [hspelling]
  decide +kernel

end Lexing
