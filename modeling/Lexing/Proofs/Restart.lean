import Lexing.Proofs.Composition
import Lexing.Proofs.Progress

/-!
Starting again between two tokens. What a tokenizer finds depends on its lexicon and on the text
that is left, not on the text before. The tokens from some place of a source on are therefore those
of the text that is left there, read as a source of its own.

Only the positions differ. Those in the first line of the text that is left go on from the column of
the place, and those in later lines keep their column (`Position.rebase`).
-/

namespace Lexing

namespace Position

variable {p : Position}

/-- A position of a text, as a position of a larger text that has the first one at `origin`. -/
def rebase (origin p : Position) : Position :=
  if p.line = 1 then ⟨origin.line, origin.column + p.column - 1⟩
  else ⟨origin.line + p.line - 1, p.column⟩

theorem rebase_start (origin : Position) : rebase origin start = origin := rfl

/-- The line and the column are counted from one. -/
def Counted (p : Position) : Prop :=
  1 ≤ p.line ∧ 1 ≤ p.column

theorem Counted.after (h : p.Counted) (l : Lexeme) : (p.after l).Counted := by
  obtain ⟨hline, hcolumn⟩ := h
  unfold Position.after
  split
  · exact ⟨Nat.le_add_left _ _, Nat.le_refl _⟩
  · exact ⟨hline, Nat.le_add_right_of_le hcolumn⟩

/-- Going behind a token and changing the origin may be exchanged. -/
theorem Counted.rebase_after (h : p.Counted) (origin : Position) (l : Lexeme) :
    (rebase origin p).after l = rebase origin (p.after l) := by
  obtain ⟨hline, hcolumn⟩ := h
  unfold Position.after
  by_cases hk : l.kind = .newline
  -- Behind a line break the column starts anew, wherever the line began.
  · by_cases hp : p.line = 1
    · simp [hk, rebase, nextLine, hp]
    · have hne : p.line ≠ 0 := by omega
      simp [hk, rebase, nextLine, hp, hne]
      omega
  · by_cases hp : p.line = 1
    · simp [hk, rebase, right, hp]
      omega
    · simp [hk, rebase, right, hp]

end Position

namespace Token

/-- What a token says apart from where it stands. -/
def content (t : Token) : TokenKind × String :=
  (t.kind, t.value)

theorem map_content_moved (f : Position → Position) (tokens : List Token) :
    (tokens.map (moved f)).map content = tokens.map content :=
  List.map_map

end Token

namespace Tokenizer

variable {t : Tokenizer}

/-- A tokenizer finds what a new one finds in the text that is left. -/
theorem drain_eq_map_rebase (hf : t.finished = false) :
    t.drain.1 =
      (t.lexicon.tokenize (String.ofList t.rest)).map
        (Token.moved (Position.rebase t.position)) := by
  let fresh := Tokenizer.load { lexicon := t.lexicon } (String.ofList t.rest)
  have hplaced : fresh.placed (Position.rebase t.position fresh.position) = t := by
    obtain ⟨L, rest, position, finished⟩ := t
    cases hf
    simp [fresh, load, placed, Position.rebase_start]
  have hcounted : fresh.position.Counted := ⟨Nat.le_refl 1, Nat.le_refl 1⟩
  have hmap := drain_placed_map (fun _ l h => h.after l)
    (fun _ l h => h.rebase_after t.position l) hcounted
  rw [hplaced] at hmap
  exact hmap

/-- From each of its tokens on, a sequence is that of a new tokenizer. -/
theorem drop_drain (hf : t.finished = false) {i : Nat}
    (h : i ≤ t.drain.1.countP fun token => !token.isEnd) :
    t.drain.1.drop i =
      (t.lexicon.tokenize (String.ofList (t.take i).2.rest)).map
        (Token.moved (Position.rebase (t.take i).2.position)) := by
  obtain ⟨-, hdrop⟩ := drain_take t i
  have hlt : i < t.drain.1.length := by
    have hcount := (endsOnce_drain hf).1.countP_add_one
    omega
  -- The end of input is still to come, so that the sequence goes on.
  have hfinished : (t.take i).2.finished = false := by
    rw [Bool.eq_false_iff, ne_eq, ← drain_eq_nil_iff, hdrop, List.drop_eq_nil_iff]
    omega
  rw [← hdrop, drain_eq_map_rebase hfinished, lexicon_take]

end Tokenizer

/-- The tokens of a source from any token on are those of the text that is left there, read as a
source of its own, in the same lexicon and at the rebased positions. Wherever two sources have the
same text left, the same kinds and values follow, whatever stands before. -/
theorem drop_tokenize (L : Lexicon) (source : String) {i : Nat}
    (h : i ≤ (L.tokenize source).countP fun token => !token.isEnd) :
    let t := Tokenizer.load { lexicon := L } source
    let u := (t.take i).2
    (t.take i).1 = (L.tokenize source).take i ∧
      (L.tokenize source).drop i =
        (L.tokenize (String.ofList u.rest)).map (Token.moved (Position.rebase u.position)) ∧
      ∀ (source' : String) (j : Nat), (j ≤ (L.tokenize source').countP fun token => !token.isEnd) →
        ((Tokenizer.load { lexicon := L } source').take j).2.rest = u.rest →
          ((L.tokenize source').drop j).map Token.content =
            ((L.tokenize source).drop i).map Token.content := by
  intro t u
  have hdrop : (L.tokenize source).drop i = _ := Tokenizer.drop_drain (t := t) rfl h
  refine ⟨(Tokenizer.drain_take t i).1, hdrop, fun source' j hj hrest => ?_⟩
  have hdrop' : (L.tokenize source').drop j = _ :=
    Tokenizer.drop_drain (t := Tokenizer.load { lexicon := L } source') rfl hj
  rw [hdrop, hdrop', hrest, Token.map_content_moved, Token.map_content_moved]
  rfl

/-- What is left behind the literal starts in the middle of a line. Another source leaves the same
text behind a comment. -/
theorem drop_tokenize_of_literal :
    let L := Lexicon.standard.set (.symbols ["é"])
    let source := "a\n\"x\ny\" é\nb"
    let source' := "// \"\n é\nb"
    let u := ((Tokenizer.load { lexicon := L } source).take 3).2
    3 ≤ ((L.tokenize source).countP fun token => !token.isEnd) ∧
      2 ≤ ((L.tokenize source').countP fun token => !token.isEnd) ∧
      u.rest = " é\nb".toList ∧ u.position = ⟨2, 6⟩ ∧
      ((Tokenizer.load { lexicon := L } source').take 2).2.rest = u.rest ∧
      (L.tokenize source).drop 3 =
        (L.tokenize (String.ofList u.rest)).map (Token.moved (Position.rebase u.position)) ∧
      ((L.tokenize source').drop 2).map Token.content =
        ((L.tokenize source).drop 3).map Token.content := by
  intro L source source' u
  have hi : 3 ≤ ((L.tokenize source).countP fun token => !token.isEnd) := by decide +kernel
  have hj : 2 ≤ ((L.tokenize source').countP fun token => !token.isEnd) := by decide +kernel
  have hrest : ((Tokenizer.load { lexicon := L } source').take 2).2.rest = u.rest := by
    decide +kernel
  obtain ⟨-, hdrop, hsame⟩ := drop_tokenize L source hi
  exact ⟨hi, hj, by decide +kernel, by decide +kernel, hrest, hdrop, hsame source' 2 hj hrest⟩

end Lexing
