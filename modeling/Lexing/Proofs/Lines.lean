import Lexing.Proofs.LineBreaks
import Lexing.Proofs.Progress
import Lexing.Text.Line

/-!
Lines and tokens. A source has lines in two ways: an excerpt cuts the text at its line breaks, and a
tokenizer counts the newline tokens that it has given. The line of a token is always one that the
source has, since the count may fall behind the breaks but never runs ahead of them. As long as no
literal goes over a break both ways agree: the end of input is on the last line, and an excerpt is
what the tokens of its line cover, without a carriage return at its end (`tokenize_lines`).
-/

namespace Lexing

namespace Taken

/-- The text that the tokens of a line cover, its line break left out. -/
def lineText (gs : List Taken) (line : Nat) : List Char :=
  text (gs.filter fun g => g.token.position.line = line ∧ g.token.kind ≠ .newline)

variable {g : Taken} {gs : List Taken} {line : Nat}

theorem lineText_cons_of_newline (h : g.isNewline = true) :
    lineText (g :: gs) line = lineText gs line := by
  have hk : g.token.kind = .newline := by simpa [isNewline] using h
  simp [lineText, hk]

theorem lineText_cons_of_line_eq (h : g.isNewline = false) (hline : g.token.position.line = line) :
    lineText (g :: gs) line = g.span ++ lineText gs line := by
  have hk : g.token.kind ≠ .newline := by simpa [isNewline] using h
  rw [lineText, List.filter_cons_of_pos (by simp [hk, hline]), text_cons, lineText]

theorem lineText_cons_of_line_ne (hline : g.token.position.line ≠ line) :
    lineText (g :: gs) line = lineText gs line := by
  simp [lineText, hline]

theorem lineText_eq_nil (h : ∀ g ∈ gs, g.token.position.line ≠ line) : lineText gs line = [] := by
  rw [lineText, List.filter_eq_nil_iff.2 fun g hg => by simp [h g hg]]
  rfl

/-- The tokens cover the text line by line, where its first line has the given number. -/
def CoverLines (gs : List Taken) (line : Nat) (text : List Char) : Prop :=
  ∀ n ≤ text.count '\n', (dropLines? n text).map firstLine = some (lineText gs (line + n))

theorem coverLines_singleton (h : g.span = []) (line : Nat) : CoverLines [g] line [] := by
  intro n hn
  obtain rfl := Nat.le_zero.1 hn
  have hnil : lineText [g] line = [] := by
    rw [lineText, text]
    by_cases hg : g.token.position.line = line ∧ g.token.kind ≠ .newline <;> simp [hg, h]
  rw [Nat.add_zero, hnil]
  rfl

/-- A newline token ends a line when all that follows stands below it. -/
theorem CoverLines.newline {text : List Char} (h : CoverLines gs (line + 1) text)
    (hg : g.isNewline = true) (below : ∀ g ∈ gs, line + 1 ≤ g.token.position.line) :
    CoverLines (g :: gs) line ('\n' :: text) := by
  intro n hn
  rw [lineText_cons_of_newline hg]
  cases n with
  | zero =>
    rw [Nat.add_zero, lineText_eq_nil fun g hg => Nat.ne_of_gt (below g hg)]
    rfl
  | succ n =>
    have hline : line + (n + 1) = line + 1 + n := by omega
    rw [List.count_cons_self, Nat.add_le_add_iff_right] at hn
    rw [hline, ← h n hn]
    rfl

/-- A token without line breaks lengthens the first line. -/
theorem CoverLines.cons {text : List Char} (h : CoverLines gs line text)
    (hg : g.isNewline = false) (hline : g.token.position.line = line) (hbreak : '\n' ∉ g.span) :
    CoverLines (g :: gs) line (g.span ++ text) := by
  intro n hn
  rw [List.count_append, List.count_eq_zero.2 hbreak, Nat.zero_add] at hn
  have hrest := h n hn
  cases n with
  | zero =>
    rw [dropLines?_zero, Option.map_some, Option.some.injEq, Nat.add_zero] at hrest
    rw [dropLines?_zero, Option.map_some, Nat.add_zero, firstLine_append hbreak, hrest,
      lineText_cons_of_line_eq hg hline]
  | succ n =>
    have hne : g.token.position.line ≠ line + (n + 1) := by omega
    rw [dropLines?_succ_append hbreak, hrest, lineText_cons_of_line_ne hne]

end Taken

namespace Tokenizer

variable {t u v : Tokenizer}

/-! ## The lines that tokens stand on -/

theorem line_le_nextToken (t : Tokenizer) : t.position.line ≤ t.nextToken.2.position.line := by
  rw [position_nextToken]
  split
  · exact Nat.le_succ _
  · exact Nat.le_refl _

theorem Run.line_le {gs : List Taken} (h : Run t gs v) : t.position.line ≤ v.position.line := by
  induction h with
  | start => exact Nat.le_refl _
  | silent _ same ih => rwa [same.position]
  | token _ same ih =>
    rw [same.position]
    exact Nat.le_trans ih (line_le_nextToken _)

/-- No token of the sequence stands above the cursor. -/
theorem line_le_of_mem_sequence {g : Taken} (hg : g ∈ t.sequence) :
    t.position.line ≤ g.token.position.line := by
  obtain ⟨_, hrun⟩ := run_sequence t
  obtain ⟨_, hbefore, -⟩ := hrun.before hg
  rw [hrun.token_position hg]
  exact hbefore.line_le

/-- The line of a token is one of the lines of the source. -/
theorem lineExcerpt?_isSome_of_mem {source : String} {token : Token}
    (h : token ∈ tokenize source) :
    (lineExcerpt? source.toList token.position.line).isSome = true := by
  rw [tokenize_eq_sequence] at h
  obtain ⟨g, hg, rfl⟩ := List.mem_map.1 h
  obtain ⟨pre, post, hseq⟩ := List.append_of_mem hg
  have hreported := (reported_of_sequence_eq rfl rfl hseq).line_eq
  have hsource : Taken.text pre ++ g.before.rest = source.toList :=
    (run_of_sequence_eq hseq).text_append_rest
  have hcount := congrArg (List.count '\n') hsource
  rw [List.count_append] at hcount
  refine lineExcerpt?_isSome_iff.2 ⟨line_le_of_mem_sequence hg, ?_⟩
  simp only [Position.physical] at hreported
  omega

/-! ## The text of a line -/

/-- The sequence covers what is left of the text line by line, as long as no literal goes over a line
break. -/
theorem coverLines_sequence (hL : t.lexicon = .standard) (hf : t.finished = false)
    (hliteral : ∀ g ∈ t.sequence, g.token.kind = .string → '\n' ∉ g.token.value.toList) :
    Taken.CoverLines t.sequence t.position.line t.rest := by
  induction t using next_induction with
  | ended t h =>
    rw [next?_eq_none_iff.1 h] at hf
    contradiction
  | step t token u h ih =>
    have hspan := span_append_rest_nextToken t token
    by_cases hr : t.rest = []
    · have hnext := next?_of_rest_eq_nil hf hr
      rw [sequence_of_next?_eq_some hnext, sequence_eq_nil_iff.2 rfl, hr]
      exact Taken.coverLines_singleton (by rw [Taken.span, hr, Lexicon.span_lexeme_nil]) _
    obtain ⟨rfl, hsame⟩ := sameCursor_next? h
    have hu : u.finished = false :=
      (finished_of_next? h).trans (isEnd_nextToken_eq_false_iff.2 hr)
    have hposition := hsame.position
    rw [position_nextToken] at hposition
    rw [sequence_of_next?_eq_some h] at hliteral ⊢
    obtain ⟨hg, hgs⟩ := List.forall_mem_cons.1 hliteral
    have hrest := ih ((lexicon_of_next? h).trans hL) hu hgs
    rw [← hspan, ← hsame.rest]
    -- What follows a newline token covers the lines below, and what follows any other token goes on
    -- with the same line.
    rcases breaks_nextToken hL with ⟨hnewline, hbreak, -⟩ | ⟨hnewline, hbreaks⟩
    · have hline : u.position.line = t.position.line + 1 := by
        rw [hposition, if_pos hnewline]
        rfl
      rw [hline] at hrest
      rw [hbreak]
      exact hrest.newline hnewline fun g hg => hline ▸ line_le_of_mem_sequence hg
    · have hline : u.position.line = t.position.line := by
        rw [hposition, if_neg (Bool.eq_false_iff.1 hnewline), Position.line_right]
      have hnone : '\n' ∉ (Taken.mk t t.nextToken.1).span := by
        rw [← List.count_eq_zero, hbreaks]
        exact Token.literalBreaks_eq_zero_iff.2 hg
      rw [hline] at hrest
      exact hrest.cons hnewline rfl hnone

/-- The end of input stands on the last line, as long as no literal goes over a line break. -/
theorem exists_end_on_last_line {source : String}
    (hliteral : ∀ g ∈ (load {} source).sequence,
      g.token.kind = .string → '\n' ∉ g.token.value.toList) :
    ∃ init last, tokenize source = init ++ [last] ∧ last.kind = .endOfInput ∧
      last.position.line = source.toList.count '\n' + 1 := by
  obtain ⟨pre, last, hseq, hend⟩ := exists_sequence_eq_concat (t := load {} source) rfl
  have hmem : last ∈ (load {} source).sequence := by simp [hseq]
  have hphysical := (reported_of_sequence_eq rfl rfl hseq).eq_iff.2 fun g hg =>
    hliteral g (by simp [hseq, hg])
  have hsource := (run_of_sequence_eq hseq).text_append_rest
  rw [hend, List.append_nil] at hsource
  refine ⟨pre.map Taken.token, last.token, ?_, ?_, ?_⟩
  · rw [tokenize_eq_sequence, hseq, List.map_append, List.map_singleton]
  · rw [token_of_mem_sequence hmem]
    exact kind_nextToken_iff.2 hend
  · rw [hphysical, hsource, Position.physical, Nat.add_comm]
    rfl

end Tokenizer

/-- The line of every token has an excerpt. When no literal goes over a line break, the source has the
lines from the first to that of the end of input, and the excerpt of a line is what the tokens on it
cover, line breaks apart, without one carriage return at the end. -/
theorem tokenize_lines (source : String) :
    let gs : List Taken := (Tokenizer.load {} source).sequence
    tokenize source = gs.map Taken.token ∧ Taken.text gs = source.toList ∧
      (∀ token ∈ tokenize source, (lineExcerpt? source.toList token.position.line).isSome = true) ∧
      ((∀ token ∈ tokenize source, token.kind = .string → '\n' ∉ token.value.toList) →
        ∃ init last, tokenize source = init ++ [last] ∧ last.kind = .endOfInput ∧
          (∀ line, (lineExcerpt? source.toList line).isSome = true ↔
            1 ≤ line ∧ line ≤ last.position.line) ∧
          ∀ line, 1 ≤ line → line ≤ last.position.line →
            lineExcerpt? source.toList line = some (dropReturn (Taken.lineText gs line))) := by
  intro gs
  refine ⟨tokenize_eq_sequence source, Tokenizer.text_sequence rfl,
    fun _ h => Tokenizer.lineExcerpt?_isSome_of_mem h, fun hliteral => ?_⟩
  have hliteral : ∀ g ∈ gs, g.token.kind = .string → '\n' ∉ g.token.value.toList := by
    intro g hg
    refine hliteral g.token ?_
    rw [tokenize_eq_sequence]
    exact List.mem_map_of_mem hg
  have hcover : Taken.CoverLines gs 1 source.toList :=
    Tokenizer.coverLines_sequence rfl rfl hliteral
  obtain ⟨init, last, htokens, hend, hline⟩ := Tokenizer.exists_end_on_last_line hliteral
  refine ⟨init, last, htokens, hend, fun line => ?_, fun line hone hle => ?_⟩
  · rw [lineExcerpt?_isSome_iff, hline]
  · obtain ⟨n, rfl⟩ : ∃ n, line = 1 + n := ⟨line - 1, by omega⟩
    have htext := congrArg (Option.map dropReturn) (hcover n (by omega))
    rw [Option.map_map, Option.map_some] at htext
    rw [Nat.add_comm 1 n, lineExcerpt?, Nat.add_comm n 1]
    exact htext

/-- A carriage return before a line break is left out, and so is one at the end of the source. -/
theorem tokenize_lines_of_returns :
    let source := "x \"é\" \r\n\n\t// y\r"
    let gs := (Tokenizer.load {} source).sequence
    (∀ token ∈ tokenize source, token.kind = .string → '\n' ∉ token.value.toList) ∧
      [1, 2, 3].map (lineExcerpt? source.toList) =
        ["x \"é\" ", "", "\t// y"].map (some ∘ String.toList) ∧
      ∀ line, 1 ≤ line → line ≤ 3 →
        lineExcerpt? source.toList line = some (dropReturn (Taken.lineText gs line)) := by
  intro source gs
  have hliteral : ∀ token ∈ tokenize source, token.kind = .string → '\n' ∉ token.value.toList := by
    decide +kernel
  have hthird : (lineExcerpt? source.toList 3).isSome = true := by decide +kernel
  obtain ⟨-, -, -, hlines⟩ := tokenize_lines source
  obtain ⟨_, last, -, -, hiff, htext⟩ := hlines hliteral
  have hlast : 3 ≤ last.position.line := ((hiff 3).1 hthird).2
  exact ⟨hliteral, by decide +kernel,
    fun line hone hle => htext line hone (Nat.le_trans hle hlast)⟩

end Lexing
