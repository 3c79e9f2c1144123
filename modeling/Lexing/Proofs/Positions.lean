import Lexing.Proofs.Run

/-!
Positions along a run. The position of a tokenizer is a count over the tokens that it has given:
the line counts the newline tokens, the column the characters that the tokens since the last of them
cover. A token carries the position of the tokenizer before it, so positions increase strictly from
one token to the next.
-/

namespace Lexing

namespace Position

theorem lt_trans {p q r : Position} (hpq : p < q) (hqr : q < r) : p < r := by
  rw [lt_iff] at hpq hqr ⊢
  omega

end Position

namespace Taken

/-- Whether the token ends a line. -/
def isNewline (g : Taken) : Bool :=
  g.token.kind = .newline

/-- The tokens after the last newline token, latest first; all of them when there is none. -/
def sinceNewline (gs : List Taken) : List Taken :=
  gs.reverse.takeWhile fun g => !g.isNewline

/-- The number of characters that the tokens cover. -/
def width (gs : List Taken) : Nat :=
  (gs.map span).flatten.length

/-- Where the tokens lead to when the first of them stands at the start of a source. -/
def endPosition (gs : List Taken) : Position :=
  ⟨1 + gs.countP isNewline, 1 + width (sinceNewline gs)⟩

theorem endPosition_append_newline {g : Taken} (h : g.isNewline = true) (gs : List Taken) :
    endPosition (gs ++ [g]) = (endPosition gs).nextLine := by
  simp [endPosition, Position.nextLine, sinceNewline, width, h, Nat.add_assoc]

theorem endPosition_append {g : Taken} (h : g.isNewline = false) (gs : List Taken) :
    endPosition (gs ++ [g]) = (endPosition gs).right g.span.length := by
  simp [endPosition, Position.right, sinceNewline, width, h]
  omega

end Taken

namespace Tokenizer

variable {t v : Tokenizer} {gs : List Taken}

theorem position_nextToken (t : Tokenizer) :
    t.nextToken.2.position =
      if (Taken.mk t t.nextToken.1).isNewline then t.position.nextLine
      else t.position.right (Taken.mk t t.nextToken.1).span.length := by
  by_cases hk : (t.lexicon.lexeme t.rest).kind = .newline
  · simp [nextToken, Position.after, Taken.isNewline, hk]
  · simp [nextToken, Position.after, Taken.isNewline, Taken.span, hk]

/-- The end of input leaves the position as it is, and any other token moves it forward. -/
theorem position_nextToken_cases (t : Tokenizer) :
    t.nextToken.1.kind = .endOfInput ∧ t.nextToken.2.position = t.position ∨
      t.position < t.nextToken.2.position := by
  rw [position_nextToken]
  by_cases hr : t.rest = []
  · left
    have hend : t.nextToken.1.kind = .endOfInput := Lexicon.kind_lexeme_eq_endOfInput_iff.2 hr
    simp [Taken.isNewline, Taken.span, hend, hr]
  · right
    have hpos := List.length_pos_iff.2 (t.lexicon.span_lexeme_ne_nil hr)
    split
    · exact Position.lt_nextLine _
    · exact Position.lt_right hpos

/-- A run from the start of a source stands where its tokens lead to. -/
theorem Run.position_eq (h : Run t gs v) (ht : t.position = .start) :
    v.position = Taken.endPosition gs := by
  induction h with
  | start => rw [ht]; rfl
  | silent _ same ih => rw [same.position, ih]
  | @token gs u v _ same ih =>
    rw [same.position, position_nextToken, ih]
    cases hn : (Taken.mk u u.nextToken.1).isNewline with
    | true => rw [Taken.endPosition_append_newline hn, if_pos rfl]
    | false => rw [Taken.endPosition_append hn, if_neg (by decide)]

theorem Run.token_position (h : Run t gs v) {g : Taken} (hg : g ∈ gs) :
    g.token.position = g.before.position := by
  rw [h.token_eq hg]
  rfl

theorem Run.position_lt (h : Run t gs v) {g : Taken} (hg : g ∈ gs)
    (hk : g.token.kind ≠ .endOfInput) : g.token.position < v.position := by
  induction h with
  | start => contradiction
  | silent _ same ih => rw [same.position]; exact ih hg
  | @token gs u v _ same ih =>
    rw [same.position]
    rcases List.mem_append.1 hg with hg | hg
    · rcases position_nextToken_cases u with ⟨-, heq⟩ | hlt
      · rw [heq]
        exact ih hg
      · exact Position.lt_trans (ih hg) hlt
    · obtain rfl := List.mem_singleton.1 hg
      rcases position_nextToken_cases u with ⟨hend, -⟩ | hlt
      · exact absurd hend hk
      · exact hlt

/-- Whatever is taken after a token that covers text stands behind it. -/
theorem Run.pairwise_position_lt (h : Run t gs v) :
    gs.Pairwise fun g g' => g.token.kind ≠ .endOfInput → g.token.position < g'.token.position := by
  apply Run.pairwise _ h
  intro gs u hrun g hg hk
  exact hrun.position_lt hg hk

/-- After a load, the line of a tokenizer counts the newline tokens that it has given, and the
column the characters of the tokens since the last of these, both from one. Every token carries the
position that the tokenizer had before it, and tokens that cover text stand before all that follow
them. -/
theorem position_calls (t : Tokenizer) (source : String) {cs : List Call}
    (h : ∀ c ∈ cs, c.isLoad = false) :
    let gs := (t.load source).taken cs
    let p := ((t.load source).calls cs).2.position
    p.line = 1 + gs.countP Taken.isNewline ∧
      p.column = 1 + Taken.width (Taken.sinceNewline gs) ∧
      (∀ g ∈ gs, g.token.position = g.before.position) ∧
      gs.Pairwise fun g g' =>
        g.token.kind ≠ .endOfInput → g.token.position < g'.token.position := by
  have hrun := run_calls h (t.load source)
  have hpos := hrun.position_eq rfl
  refine ⟨by rw [hpos]; rfl, by rw [hpos]; rfl, ?_, hrun.pairwise_position_lt⟩
  intro g hg
  exact hrun.token_position hg

/-- A literal with a line break stays on its line, and a line break ends one. -/
theorem position_calls_of_literal :
    let t : Tokenizer := ({} : Tokenizer).load "\"é\n\" \nx"
    let cs : List Call := [.nextToken, .next, .set (.keywords ["x"]), .next, .next, .nextToken]
    let gs := t.taken cs
    let p := (t.calls cs).2.position
    (∀ c ∈ cs, c.isLoad = false) ∧ p = ⟨2, 2⟩ ∧
      p.line = 1 + gs.countP Taken.isNewline ∧
      p.column = 1 + Taken.width (Taken.sinceNewline gs) ∧
      (∀ g ∈ gs, g.token.position = g.before.position) ∧
      gs.Pairwise fun g g' =>
        g.token.kind ≠ .endOfInput → g.token.position < g'.token.position :=
  ⟨by decide, by decide, position_calls {} _ (by decide)⟩

end Tokenizer

end Lexing
