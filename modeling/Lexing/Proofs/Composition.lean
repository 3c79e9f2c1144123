import Lexing.Proofs.Lookahead

/-!
Sources put together from lines. A line break ends every token but an open quote, so the tokens of a
text that a line break follows are those of the text alone. Behind the line break a tokenizer stands
as it does at the start of a source, save for its line. What it gives there are the tokens of a
source of its own, so many lines further down (`tokenize_append_line`).
-/

namespace Lexing

/-! ## Tokens at another place -/

/-- The position `n` lines further down, in the same column. -/
def Position.down (p : Position) (n : Nat) : Position :=
  { p with line := p.line + n }

theorem Position.down_after (p : Position) (n : Nat) (l : Lexeme) :
    (p.down n).after l = (p.after l).down n := by
  unfold after
  split
  · simp [down, nextLine, Nat.add_right_comm]
  · rfl

namespace Token

/-- The token at the position to which `f` moves its own. -/
def moved (f : Position → Position) (t : Token) : Token :=
  { t with position := f t.position }

/-- The token `n` lines further down. -/
def down (n : Nat) (t : Token) : Token :=
  { t with position := t.position.down n }

/-- The tokens are the same but for their positions, which are related. -/
structure Alike (R : Position → Position → Prop) (x y : Token) : Prop where
  kind_eq : x.kind = y.kind
  value_eq : x.value = y.value
  position : R x.position y.position

end Token

namespace Tokenizer

variable {t u : Tokenizer}

/-- The tokenizer before the same text, with its cursor at another position. -/
def placed (t : Tokenizer) (p : Position) : Tokenizer :=
  { t with position := p }

theorem next?_placed {token : Token} (h : t.next? = some (token, u)) (p : Position) :
    (t.placed p).next? =
      some ({ token with position := p }, u.placed (p.after (t.lexicon.lexeme t.rest))) := by
  obtain ⟨hf, rfl, rfl⟩ := next?_eq_some h
  simp [next?, placed, nextToken, hf, Token.isEnd]

/-- Where the cursor stands has no part in what is found, and positions that are related stay so
behind every token. -/
theorem drain_placed {R : Position → Position → Prop}
    (hR : ∀ p q l, R p q → R (p.after l) (q.after l)) {p : Position} (h : R t.position p) :
    List.Forall₂ (Token.Alike R) t.drain.1 (t.placed p).drain.1 := by
  refine drain_lockstep (S := fun t u => ∃ p, R t.position p ∧ u = t.placed p) ?_ ?_ ⟨p, h, rfl⟩
  · rintro t _ ⟨p, -, rfl⟩ hn
    rw [next?_eq_none_iff] at hn ⊢
    exact hn
  · rintro t _ token u ⟨p, hp, rfl⟩ hn
    refine ⟨_, _, next?_placed hn p, ?_⟩
    obtain ⟨-, rfl, rfl⟩ := next?_eq_some hn
    exact ⟨⟨rfl, rfl, hp⟩, _, hR _ _ _ hp, rfl⟩

/-- The tokens are found where `f` moves their positions to, if `f` agrees with going behind a token.
-/
theorem drain_placed_map {P : Position → Prop} {f : Position → Position}
    (hP : ∀ p l, P p → P (p.after l)) (hf : ∀ p l, P p → (f p).after l = f (p.after l))
    (h : P t.position) : (t.placed (f t.position)).drain.1 = t.drain.1.map (Token.moved f) := by
  have hR : ∀ p q l, (P p ∧ q = f p) → P (p.after l) ∧ q.after l = f (p.after l) := by
    rintro p q l ⟨hp, rfl⟩
    exact ⟨hP p l hp, hf p l hp⟩
  have halike := drain_placed hR ⟨h, rfl⟩
  have heq : List.Forall₂ (fun x y => x.moved f = y) t.drain.1
      (t.placed (f t.position)).drain.1 := by
    refine halike.imp fun x y h => ?_
    rw [Token.moved, h.kind_eq, h.value_eq, ← h.position.2]
  rw [← List.forall₂_map_left_iff, List.forall₂_eq_eq_eq] at heq
  exact heq.symm

theorem drain_placed_down (t : Tokenizer) (n : Nat) :
    (t.placed (t.position.down n)).drain.1 = t.drain.1.map (Token.down n) :=
  drain_placed_map (P := fun _ => True) (f := (·.down n)) (fun _ _ _ => trivial)
    (fun p l _ => p.down_after n l) trivial

/-! ## The line break -/

theorem next?_of_break (hL : t.lexicon = .standard) (hf : t.finished = false) {rest : List Char}
    (hrest : t.rest = '\n' :: rest) :
    t.next? =
      some (⟨.newline, "", t.position⟩, { t with rest, position := t.position.nextLine }) := by
  have hl : Lexicon.standard.lexeme ('\n' :: rest) = ⟨.newline, [], ['\n'], rest⟩ :=
    Lexeme.Standard.newline.lexeme_eq
  simp [next?, nextToken, hL, hf, hrest, hl, Position.after, Token.isEnd]

/-- Behind a line break the text is read as a source of its own. -/
theorem drain_of_break (hL : t.lexicon = .standard) (hf : t.finished = false) {source : String}
    (hrest : t.rest = '\n' :: source.toList) :
    t.drain.1 =
      ⟨.newline, "", t.position⟩ :: (tokenize source).map (Token.down t.position.line) := by
  have hplaced : { t with rest := source.toList, position := t.position.nextLine } =
      (Tokenizer.load {} source).placed (Position.start.down t.position.line) := by
    simp [load, placed, Position.start, Position.down, Position.nextLine, hL, hf, Nat.add_comm]
  have hdown := drain_placed_down (Tokenizer.load {} source) t.position.line
  rw [drain_of_next?_eq_some (next?_of_break hL hf hrest), hplaced]
  exact congrArg _ hdown

/-- The tokens before the end of the text stay as they are when a line break follows, if none of
them is an open quote. -/
theorem drain_extend_break (hL : t.lexicon = .standard) (hf : t.finished = false)
    (hopen : ∀ g ∈ t.sequence, ¬g.IsOpenQuote) (source : String) :
    ∃ init p, t.drain.1 = init ++ [⟨.endOfInput, "", p⟩] ∧
      (t.extend ('\n' :: source.toList)).drain.1 =
        init ++ ⟨.newline, "", p⟩ :: (tokenize source).map (Token.down p.line) := by
  obtain ⟨pre, g, hseq, hend⟩ := exists_sequence_eq_concat hf
  obtain ⟨u, hn, -⟩ := next?_of_sequence_eq hseq
  obtain ⟨hg, htoken, -⟩ := next?_eq_some hn
  have hmem : g ∈ t.sequence := by simp [hseq]
  have hlexicon : g.before.lexicon = .standard := (lexicon_of_mem_sequence hmem).trans hL
  have hpre : ∀ g' ∈ pre, ¬g'.IsOpenQuote := fun g' hg' => hopen g' (by simp [hseq, hg'])
  have hdrain := drain_extend hL hseq hpre (.inr rfl : Settled _ ('\n' :: source.toList))
  refine ⟨pre.map Taken.token, g.before.position, ?_, ?_⟩
  · rw [drain_eq_sequence, hseq, List.map_append, List.map_singleton, htoken, nextToken, hlexicon,
      hend, Lexicon.lexeme_nil]
    rfl
  · have hbreak : (g.before.extend ('\n' :: source.toList)).rest = '\n' :: source.toList := by
      simp [extend, hend]
    rw [hdrain]
    exact congrArg _ (drain_of_break (t := g.before.extend _) hlexicon hg hbreak)

end Tokenizer

/-- The tokens of a text, a line break and another text are those of the first text without its end
of input, a newline token in its place, and the tokens of the other text so many lines further down.
-/
theorem tokenize_append_line (a b : String)
    (hopen : ∀ token ∈ tokenize a, ¬(token.kind = .unknown ∧ token.value = "\"")) :
    ∃ init p, tokenize a = init ++ [⟨.endOfInput, "", p⟩] ∧
      tokenize (a ++ "\n" ++ b) =
        init ++ ⟨.newline, "", p⟩ :: (tokenize b).map (Token.down p.line) := by
  have hquotes : ∀ g ∈ (Tokenizer.load {} a).sequence, ¬g.IsOpenQuote := by
    rw [tokenize_eq_sequence] at hopen
    exact fun g hg => hopen g.token (List.mem_map_of_mem hg)
  have hload : Tokenizer.load {} (a ++ "\n" ++ b) =
      (Tokenizer.load {} a).extend ('\n' :: b.toList) := by
    simp [Tokenizer.load, Tokenizer.extend]
  obtain ⟨init, p, ha, hb⟩ := Tokenizer.drain_extend_break rfl rfl hquotes b
  exact ⟨init, p, ha, by rw [← hload] at hb; exact hb⟩

/-- The literal of the first text goes over a line break, which does not count for the lines below.
Without the line break between the texts, the blanks would go into a comment. -/
theorem tokenize_append_line_of_literal :
    let a := "\"x\ny\" 1. \t"
    let b := "// \"\n 5"
    (∀ token ∈ tokenize a, ¬(token.kind = .unknown ∧ token.value = "\"")) ∧
      ∃ init p, tokenize a = init ++ [⟨.endOfInput, "", p⟩] ∧
        tokenize (a ++ "\n" ++ b) =
          init ++ ⟨.newline, "", p⟩ :: (tokenize b).map (Token.down p.line) :=
  ⟨by decide +kernel, tokenize_append_line _ _ (by decide +kernel)⟩

/-- An open quote finds its end in a later line. -/
example : tokenize ("\"" ++ "\n" ++ "\"") =
    [⟨.string, "\n", ⟨1, 1⟩⟩, ⟨.endOfInput, "", ⟨1, 4⟩⟩] := by decide +kernel

end Lexing
