import Lexing.Proofs.LineBreaks
import Lexing.Proofs.Restart
import Lexing.Proofs.Trivia

/-!
Separation. The tokens of a source that are no trivia do not depend on how much trivia stands
between two of them, nor on what it says: a single blank in the place of each token of trivia leaves
their kinds and values as they are (`tokenize_separated`).
-/

namespace Lexing

/-- What the tokens cover, with a single blank in the place of each token of trivia. -/
def Taken.separated (gs : List Taken) : List Char :=
  (gs.map fun g => if g.token.kind.isTrivia then [' '] else g.span).flatten

/-- The text with a single blank in the place of each token of trivia, when the text starts at this
position. -/
def separatedAt (p : Position) (text : List Char) : List Char :=
  Taken.separated ({ rest := text, position := p } : Tokenizer).sequence

section Separated

variable {l : Lexeme}

theorem separatedAt_nil (p : Position) : separatedAt p [] = [] := by
  rw [separatedAt, Tokenizer.sequence_of_next?_eq_some (Tokenizer.next?_of_rest_eq_nil rfl rfl),
    Tokenizer.sequence_of_next?_eq_none (Tokenizer.next?_eq_none_iff.2 rfl)]
  rfl

theorem separatedAt_append (h : l.Standard) (p : Position) :
    separatedAt p (l.span ++ l.rest) =
      (if l.kind.isTrivia then [' '] else l.span) ++ separatedAt (p.after l) l.rest := by
  have hnext := Tokenizer.next?_of_standard
    (t := { rest := l.span ++ l.rest, position := p }) rfl rfl h rfl
  rw [separatedAt, Tokenizer.sequence_of_next?_eq_some hnext, Taken.separated, List.map_cons,
    List.flatten_cons, Taken.span, h.lexeme_eq]
  rfl

/-- A blank takes the place of layout, or of the rest of a line. -/
theorem respaced_separatedAt (text : List Char) (p : Position) :
    Respaced text (separatedAt p text) := by
  induction text using Lexeme.standard_induction generalizing p with
  | nil =>
    rw [separatedAt_nil]
    exact .nil
  | token l hl ih =>
    rw [separatedAt_append hl]
    by_cases hk : l.kind.isTrivia = true
    · rw [if_pos hk]
      rcases TokenKind.isTrivia_iff.1 hk with hk | hk
      · obtain ⟨hspan, hne, layout, -⟩ := hl.of_whitespace hk
        rw [hspan]
        exact .layout hne layout rfl (ih _)
      · obtain ⟨-, -, -, -, stops⟩ := hl.of_comment hk
        exact .lineEnd stops rfl (ih _)
    · rw [if_neg hk]
      exact (ih _).append_left _

/-- The same tokens are read where there are blanks instead, wherever either text starts. -/
theorem content_separatedAt (text : List Char) (p q : Position) :
    (significantAt q (separatedAt p text)).map Token.content =
      (significantAt p text).map Token.content := by
  induction text using Lexeme.standard_induction generalizing p q with
  | nil =>
    rw [separatedAt_nil, significantAt_nil, significantAt_nil]
    rfl
  | token l hl ih =>
    have hblank : ∀ c ∈ [' '], isLayout c = true := List.forall_mem_singleton.2 rfl
    rw [separatedAt_append hl]
    by_cases hk : l.kind.isTrivia = true
    · rw [if_pos hk, significantAt_layout hblank, significantAt_of_trivia hl hk,
        p.after_of_trivia hk, ih]
    · rw [if_neg hk]
      rw [Bool.not_eq_true] at hk
      rw [significantAt_respaced hl hk (respaced_separatedAt l.rest _),
        significantAt_of_not_trivia hl hk, List.map_cons, List.map_cons, ih]
      rfl

end Separated

/-- With a single blank in the place of each whitespace token and each comment, a source has the
same other tokens in the same order. The tokens stand in order, and their spans make up the
source. -/
theorem tokenize_separated (source : String) :
    tokenize source = (Tokenizer.load {} source).sequence.map Taken.token ∧
      Taken.text (Tokenizer.load {} source).sequence = source.toList ∧
      let source' := String.ofList (Taken.separated (Tokenizer.load {} source).sequence)
      (significant (tokenize source')).map Token.content =
        (significant (tokenize source)).map Token.content := by
  refine ⟨tokenize_eq_sequence source, Tokenizer.text_sequence rfl, ?_⟩
  intro source'
  rw [significant_tokenize, significant_tokenize, String.toList_ofList]
  exact content_separatedAt source.toList .start .start

/-- The blank keeps the point away from the digits behind it, and the slash from the other one. -/
example :
    Taken.separated (Tokenizer.load {} "1.\r2 / //\n/ /").sequence = "1. 2 / \n/ /".toList := by
  decide +kernel

end Lexing
