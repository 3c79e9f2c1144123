import Lexing.Pattern.Reader
import Lexing.Proofs.Tiling

/-!
Progress. Whatever the lexicon is and however it has been changed, a tokenizer either stands at the
end of its text, where it answers the end of input and stays as it is, or it covers at least one
character. Symbols that are empty are left out of the lexicon and matches that are empty do not count,
so that no rule can answer without going on.

The sequence that ends with the end of input therefore ends: it has no more tokens than the text that
is left has characters, and the end of input behind them (`progress_calls`).
-/

namespace Lexing

/-- The last of the tokens is the end of input, and it is the only one that is. -/
def EndsOnce (tokens : List Token) : Prop :=
  ∃ init last, tokens = init ++ [last] ∧ last.kind = .endOfInput ∧
    ∀ token ∈ init, token.kind ≠ .endOfInput

theorem endsOnce_singleton {token : Token} (h : token.kind = .endOfInput) : EndsOnce [token] :=
  ⟨[], token, rfl, h, by simp⟩

theorem EndsOnce.cons {tokens : List Token} (h : EndsOnce tokens) {token : Token}
    (hk : token.kind ≠ .endOfInput) : EndsOnce (token :: tokens) := by
  obtain ⟨init, last, rfl, hlast, hinit⟩ := h
  exact ⟨token :: init, last, rfl, hlast, List.forall_mem_cons.2 ⟨hk, hinit⟩⟩

/-- All tokens but one cover text. -/
theorem EndsOnce.countP_add_one {tokens : List Token} (h : EndsOnce tokens) :
    (tokens.countP fun token => !token.isEnd) + 1 = tokens.length := by
  obtain ⟨init, last, rfl, hlast, hinit⟩ := h
  have hcount : (init.countP fun token => !token.isEnd) = init.length :=
    List.countP_eq_length.2 fun token hmem => by simpa [Token.isEnd] using hinit token hmem
  simp [hcount, Token.isEnd_iff.2 hlast]

namespace Tokenizer

variable {t u v : Tokenizer}

/-! ## One token -/

theorem kind_nextToken_iff : t.nextToken.1.kind = .endOfInput ↔ t.rest = [] :=
  Lexicon.kind_lexeme_eq_endOfInput_iff

/-- At the end of the text a tokenizer stays as it is. -/
theorem nextToken_of_rest_eq_nil (h : t.rest = []) : t.nextToken.2 = t := by
  have hkind : (t.lexicon.lexeme []).kind = .endOfInput :=
    Lexicon.kind_lexeme_eq_endOfInput_iff.2 rfl
  obtain ⟨L, rest, position, finished⟩ := t
  cases h
  simp [nextToken, Position.after, hkind]

theorem token_of_rest_eq_nil (h : t.rest = []) :
    t.nextToken.1 = ⟨.endOfInput, "", t.position⟩ := by
  rw [nextToken, h, Lexicon.lexeme_nil]
  rfl

/-- Before the end of the text a tokenizer goes on by what its token covers. -/
theorem exists_rest_eq_append (h : t.rest ≠ []) :
    ∃ span, span ≠ [] ∧ t.rest = span ++ t.nextToken.2.rest :=
  ⟨_, t.lexicon.span_lexeme_ne_nil h, (t.lexicon.span_append_rest t.rest).symm⟩

/-! ## The sequence of tokens -/

theorem next?_drain (t : Tokenizer) : t.drain.2.next? = none := by
  induction t using next_induction with
  | ended t h => rw [drain_of_next?_eq_none h, h]
  | step t token u h ih => rw [drain_of_next?_eq_some h, ih]

theorem pending_of_not_finished (h : t.finished = false) : t.pending = t.rest.length + 1 := by
  simp [pending, h]

/-- As many calls as there can be tokens take the whole sequence. -/
theorem take_of_pending_le {n : Nat} (h : t.pending ≤ n) : t.take n = t.drain := by
  induction t using next_induction generalizing n with
  | ended t hn =>
    rw [drain_of_next?_eq_none hn]
    cases n with
    | zero => rfl
    | succ n => rw [take, hn]
  | step t token u hn ih =>
    have hlt := pending_lt_of_next? hn
    obtain ⟨m, rfl⟩ : ∃ m, n = m + 1 := ⟨n - 1, by omega⟩
    rw [drain_of_next?_eq_some hn, take, hn, ← ih (n := m) (by omega)]

theorem endsOnce_drain (h : t.finished = false) :
    EndsOnce t.drain.1 ∧ t.drain.1.length ≤ t.rest.length + 1 := by
  induction t using next_induction with
  | ended t hn =>
    rw [next?_eq_none_iff.1 hn] at h
    contradiction
  | step t token u hn ih =>
    have hfinished := finished_of_next? hn
    rw [drain_of_next?_eq_some hn]
    cases he : token.isEnd with
    | true =>
      have hnone : u.next? = none := next?_eq_none_iff.2 (hfinished.trans he)
      rw [drain_of_next?_eq_none hnone]
      exact ⟨endsOnce_singleton (Token.isEnd_iff.1 he), by simp⟩
    | false =>
      have hu := hfinished.trans he
      have hlt := pending_lt_of_next? hn
      rw [pending_of_not_finished h, pending_of_not_finished hu] at hlt
      obtain ⟨hends, hlength⟩ := ih hu
      refine ⟨hends.cons fun hk => ?_, ?_⟩
      · rw [Token.isEnd_iff.2 hk] at he
        contradiction
      · rw [List.length_cons]
        omega

theorem next?_of_rest_eq_nil (hf : t.finished = false) (hr : t.rest = []) :
    t.next? = some (⟨.endOfInput, "", t.position⟩, { t with finished := true }) := by
  simp [next?, hf, token_of_rest_eq_nil hr, nextToken_of_rest_eq_nil hr, Token.isEnd]

/-- At the end of the text only the end of input is left. -/
theorem drain_of_rest_eq_nil (hf : t.finished = false) (hr : t.rest = []) :
    t.drain.1 = [⟨.endOfInput, "", t.position⟩] := by
  rw [drain_of_next?_eq_some (next?_of_rest_eq_nil hf hr),
    drain_of_next?_eq_none (next?_eq_none_iff.2 rfl)]

/-- A token that covers all of the text stands alone before the end of input. -/
theorem drain_of_rest_lexeme_eq_nil (hf : t.finished = false) (hne : t.rest ≠ [])
    (hr : (t.lexicon.lexeme t.rest).rest = []) :
    t.drain.1 =
      [t.nextToken.1, ⟨.endOfInput, "", t.position.after (t.lexicon.lexeme t.rest)⟩] := by
  have hend : t.nextToken.1.isEnd = false := isEnd_nextToken_eq_false_iff.2 hne
  have hnext : t.next? = some (t.nextToken.1, { t.nextToken.2 with finished := false }) := by
    simp [next?, hf, hend]
  rw [drain_of_next?_eq_some hnext, drain_of_rest_eq_nil rfl hr]
  rfl

/-- At the end of the text a run goes nowhere. -/
theorem Run.sameCursor {gs : List Taken} (h : Run t gs v) (hr : t.rest = []) : t.SameCursor v := by
  induction h with
  | start => exact .refl t
  | silent _ same ih => exact ih.trans same
  | token _ same ih =>
    rw [nextToken_of_rest_eq_nil (ih.rest.trans hr)] at same
    exact ih.trans same

/-- A run leaves no more text than it started with. -/
theorem Run.length_rest_le {gs : List Taken} (h : Run t gs v) : v.rest.length ≤ t.rest.length := by
  rw [← h.flatten_spans, List.length_append]
  exact Nat.le_add_left _ _

/-- In every state that calls lead to after a load, the next token is the end of input if and only if
no text is left. Then nothing changes, and otherwise the cursor moves forward by one character or
more. The sequence of tokens has an end, behind at most as many tokens as the source has characters:
further calls get nothing, and the end of input is the last token and no other. -/
theorem progress_calls (t : Tokenizer) (source : String) {cs : List Call}
    (h : ∀ c ∈ cs, c.isLoad = false) :
    let u := ((t.load source).calls cs).2
    (u.nextToken.1.kind = .endOfInput ↔ u.isExhausted = true) ∧
      (u.isExhausted = true → u.nextToken.2 = u) ∧
      (u.isExhausted = false → ∃ span, span ≠ [] ∧ u.rest = span ++ u.nextToken.2.rest) ∧
      (u.finished = false →
        EndsOnce u.drain.1 ∧ u.drain.1.length ≤ source.length + 1 ∧ u.drain.2.next? = none ∧
          ∀ n, source.length + 1 ≤ n → u.take n = u.drain) := by
  intro u
  have hrest : u.rest.length ≤ source.length := by
    rw [← String.length_toList]
    exact (run_calls h (t.load source)).length_rest_le
  have hexhausted : u.isExhausted = true ↔ u.rest = [] := List.isEmpty_iff
  refine ⟨?_, ?_, ?_, fun hf => ?_⟩
  · rw [hexhausted]
    exact kind_nextToken_iff
  · exact fun he => nextToken_of_rest_eq_nil (hexhausted.1 he)
  · intro he
    rw [Bool.eq_false_iff, ne_eq, hexhausted] at he
    exact exists_rest_eq_append he
  · obtain ⟨hends, hlength⟩ := endsOnce_drain hf
    refine ⟨hends, by omega, next?_drain u, fun n hn => take_of_pending_le ?_⟩
    rw [pending_of_not_finished hf]
    omega

/-- The lexicon is replaced in the middle of the source: one of the symbols and one of the keywords are
empty, and the number pattern matches the empty text. -/
theorem progress_calls_of_empty_matches :
    let number := ((Pattern.read? "[0-9]*").getD .number)
    let cs : List Call := [.set (.symbols ["", "é"]), .next, .nextToken, .set (.keywords [""]),
      .set (.number number), .next]
    let u := ((Tokenizer.load {} "éx@ 12").calls cs).2
    (∀ c ∈ cs, c.isLoad = false) ∧ (number.find? ['@']).isSome = true ∧ u.rest = " 12".toList ∧
      u.finished = false ∧ EndsOnce u.drain.1 ∧ u.drain.1.length ≤ 7 ∧ u.drain.2.next? = none ∧
      ∀ n, 7 ≤ n → u.take n = u.drain := by
  intro number cs u
  have hcs : ∀ c ∈ cs, c.isLoad = false := by decide
  have hfinished : u.finished = false := by decide +kernel
  obtain ⟨-, -, -, hdrain⟩ := progress_calls {} "éx@ 12" hcs
  exact ⟨hcs, by decide +kernel, by decide +kernel, hfinished, hdrain hfinished⟩

end Tokenizer

end Lexing
