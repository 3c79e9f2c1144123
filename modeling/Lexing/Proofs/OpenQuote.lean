import Lexing.Proofs.Rules
import Lexing.Proofs.Run
import Mathlib.Control.Monad.Basic

/-!
Open quotes. A quote that opens a literal without a closing quote is an unknown character, and the
text after it is read by all rules again. No literal is found there: every later quote is escaped in
the body of the first one, so the search that starts behind it goes on as the first search does.

The invariant is `Silenced`: what is left of the text has no closing quote, in one of the two states
in which a search may stand. It does not matter where tokens cut the text, since a piece of the text
only changes the state.
-/

namespace Lexing

/-- No literal can start in the text, whatever precedes it. -/
def NoLiteral (text : List Char) : Prop :=
  ∃ escaped, QuotesEscaped escaped text

theorem NoLiteral.of_append {before text : List Char} (h : NoLiteral (before ++ text)) :
    NoLiteral text := by
  obtain ⟨escaped, h⟩ := h
  exact ⟨_, h.of_append⟩

theorem NoLiteral.string?_eq_none {text : List Char} (h : NoLiteral text) :
    Lexeme.string? text = none := by
  obtain ⟨escaped, h⟩ := h
  cases hs : Lexeme.string? text with
  | none => rfl
  | some l =>
    obtain ⟨q, r, rfl, hesc, -⟩ := Lexeme.string?_eq_some_iff.1 hs
    obtain ⟨hopen, hbody⟩ := quotesEscaped_cons_iff.1 h
    -- The quote at the start is escaped, so that the search goes on in the state of a new one.
    have htrue : escaped = true := by simpa using hopen
    have hclosed := hbody q r rfl
    simp [htrue, hesc] at hclosed

namespace Taken

/-- Whether the token is a quote that opens a literal without an end. -/
def IsOpenQuote (g : Taken) : Prop :=
  g.token.kind = .unknown ∧ g.token.value = "\""

end Taken

namespace Tokenizer

variable {t u v : Tokenizer} {gs : List Taken}

/-- No literal is recognised any more: the lexicon has no rule for literals, or none can start. -/
def Silenced (t : Tokenizer) : Prop :=
  .string ∈ t.lexicon.rules → NoLiteral t.rest

theorem Silenced.same (h : t.Silenced) (same : t.SameCursor u) : u.Silenced := by
  unfold Silenced at h ⊢
  rw [same.rules, same.rest]
  exact h

theorem Silenced.nextToken (h : t.Silenced) : t.nextToken.2.Silenced := by
  intro hr
  have happend := t.lexicon.span_append_rest t.rest
  exact NoLiteral.of_append (happend ▸ h hr)

theorem Silenced.kind_ne_string (h : t.Silenced) : t.nextToken.1.kind ≠ .string := by
  intro hk
  obtain ⟨hmem, hr⟩ := Lexicon.lexeme?_of_kind_eq (r := .string) hk (by decide)
  have hnone := (h hmem).string?_eq_none
  exact absurd (hr.symm.trans hnone) (by simp)

/-- An open quote is followed by a body whose quotes are all escaped. -/
theorem rest_of_isOpenQuote (h : (Taken.mk t t.nextToken.1).IsOpenQuote)
    (hr : .string ∈ t.lexicon.rules) : ∃ body, t.rest = '"' :: body ∧ QuotesEscaped false body ∧
      t.nextToken.2.rest = body := by
  obtain ⟨hk, hv⟩ := h
  obtain ⟨c, body, hrest, hlex, hnone⟩ := Lexicon.of_kind_lexeme_eq_unknown hk
  have hc : c = '"' := by
    have : String.ofList [c] = "\"" := by simpa [Tokenizer.nextToken, hlex] using hv
    simpa using congrArg String.toList this
  subst hc
  have hstring : Lexeme.string? ('"' :: body) = none := hrest ▸ hnone _ hr
  rw [Lexeme.string?, if_pos rfl, Option.map_eq_none_iff] at hstring
  refine ⟨body, hrest, closingQuote?_eq_none_iff.1 hstring, ?_⟩
  simp [Tokenizer.nextToken, hlex]

theorem silenced_of_isOpenQuote (h : (Taken.mk t t.nextToken.1).IsOpenQuote) :
    t.nextToken.2.Silenced := by
  intro hr
  obtain ⟨body, -, hquotes, hrest⟩ := rest_of_isOpenQuote h hr
  exact ⟨false, hrest ▸ hquotes⟩

/-- After an open quote a run stays silenced. -/
theorem Run.silenced (h : Run t gs v) {g : Taken} (hg : g ∈ gs) (ho : g.IsOpenQuote) :
    v.Silenced := by
  induction h with
  | start => contradiction
  | silent _ same ih => exact (ih hg).same same
  | @token gs u v _ same ih =>
    refine Silenced.same ?_ same
    rcases List.mem_append.1 hg with hg | hg
    · exact (ih hg).nextToken
    · obtain rfl := List.mem_singleton.1 hg
      exact silenced_of_isOpenQuote ho

theorem Run.pairwise_ne_string (h : Run t gs v) :
    gs.Pairwise fun g g' => g.IsOpenQuote → g'.token.kind ≠ .string := by
  apply Run.pairwise _ h
  intro gs u hrun g hg ho
  exact (hrun.silenced hg ho).kind_ne_string

/-- The rules stay the same along a run. -/
theorem Run.rules_eq (h : Run t gs v) : v.lexicon.rules = t.lexicon.rules := by
  induction h with
  | start => rfl
  | silent _ same ih => rw [same.rules, ih]
  | token _ same ih => exact same.rules.trans ih

end Tokenizer

theorem Diagnostic.of_ofUnknown_eq {token : Token} {p : Position}
    (h : ofUnknown token = ⟨.unterminatedString, p⟩) :
    token.value = "\"" ∧ token.position = p := by
  simp only [ofUnknown, Diagnostic.mk.injEq] at h
  obtain ⟨hcause, hp⟩ := h
  refine ⟨?_, hp⟩
  by_cases hv : token.value = "\""
  · exact hv
  · rw [if_neg hv] at hcause
    contradiction

/-- Where strict reading reports an unterminated literal, an open quote stands whose body has only
escaped quotes, and no literal is found behind it. -/
theorem of_tokenizeStrict_eq_unterminated {source : String} {p : Position}
    (h : tokenizeStrict source = .error ⟨.unterminatedString, p⟩) :
    ∃ pre post body, tokenize source = pre ++ ⟨.unknown, "\"", p⟩ :: post ∧
      ((Tokenizer.load {} source).take pre.length).2.rest = '"' :: body ∧
      (∀ q r, body = q ++ '"' :: r → isEscaped q = true) ∧
      ∀ token ∈ post, token.kind ≠ .string := by
  obtain ⟨pre, g, post, hseq, hunknown, hd, -⟩ := Tokenizer.sequence_of_drainStrict_eq_error h
  obtain ⟨hvalue, hposition⟩ := Diagnostic.of_ofUnknown_eq hd.symm
  have hopen : g.IsOpenQuote := ⟨hunknown, hvalue⟩
  obtain ⟨v, hrun⟩ := Tokenizer.run_sequence (Tokenizer.load {} source)
  rw [hseq] at hrun
  have hg : g ∈ pre ++ g :: post := by simp
  have hrules : .string ∈ g.before.lexicon.rules := by
    obtain ⟨_, hbefore, -⟩ := hrun.before hg
    rw [hbefore.rules_eq]
    change .string ∈ Rule.priority
    decide
  have hbefore : (Taken.mk g.before g.before.nextToken.1).IsOpenQuote := by
    rw [← hrun.token_eq hg]
    exact hopen
  obtain ⟨body, hrest, hquotes, -⟩ := Tokenizer.rest_of_isOpenQuote hbefore hrules
  have htoken : g.token = ⟨.unknown, "\"", p⟩ := by
    rw [← hunknown, ← hvalue, ← hposition]
  refine ⟨pre.map Taken.token, post.map Taken.token, body, ?_, ?_, ?_, ?_⟩
  · rw [tokenize_eq_sequence, hseq, List.map_append, List.map_cons, htoken]
  · rw [List.length_map, Tokenizer.take_of_sequence_eq hseq, hrest]
  · intro q r hq
    rw [← escapedAfter_false]
    exact hquotes q r hq
  · intro token htoken
    obtain ⟨g', hg', rfl⟩ := List.mem_map.1 htoken
    have hpost := (List.pairwise_append.1 hrun.pairwise_ne_string).2.1
    exact (List.pairwise_cons.1 hpost).1 g' hg' hopen

/-- No literal is taken from a source after a quote that opens one without an end, with whatever
calls and changes of the lexicon. Strict reading reports such a quote: each later quote is escaped
in its body, and no literal starts behind it. -/
theorem no_string_after_open_quote (t : Tokenizer) (source : String) {cs : List Call}
    (h : ∀ c ∈ cs, c.isLoad = false) :
    ((t.load source).taken cs).Pairwise
        (fun g g' => g.token.kind = .unknown ∧ g.token.value = "\"" → g'.token.kind ≠ .string) ∧
      ∀ p, tokenizeStrict source = .error ⟨.unterminatedString, p⟩ →
        ∃ pre post body, tokenize source = pre ++ ⟨.unknown, "\"", p⟩ :: post ∧
          ((Tokenizer.load {} source).take pre.length).2.rest = '"' :: body ∧
          (∀ q r, body = q ++ '"' :: r → isEscaped q = true) ∧
          ∀ token ∈ post, token.kind ≠ .string :=
  ⟨(Tokenizer.run_calls h _).pairwise_ne_string, fun _ hp => of_tokenizeStrict_eq_unterminated hp⟩

/-- Both quotes behind the open one are escaped, so that neither of them opens a literal. -/
theorem no_string_after_open_quote_of_escaped :
    let source := "x \"\\\"y\\\\\\\"\n"
    let t : Tokenizer := ({} : Tokenizer).load source
    let cs : List Call := [.next, .nextToken, .next, .set (.symbols ["\\"]), .next, .nextToken]
    (∀ c ∈ cs, c.isLoad = false) ∧
      tokenizeStrict source = .error ⟨.unterminatedString, ⟨1, 3⟩⟩ ∧
      (t.taken cs).Pairwise
        (fun g g' => g.token.kind = .unknown ∧ g.token.value = "\"" → g'.token.kind ≠ .string) ∧
      ∃ pre post body, tokenize source = pre ++ ⟨.unknown, "\"", ⟨1, 3⟩⟩ :: post ∧
        ((Tokenizer.load {} source).take pre.length).2.rest = '"' :: body ∧
        (∀ q r, body = q ++ '"' :: r → isEscaped q = true) ∧
        ∀ token ∈ post, token.kind ≠ .string :=
  ⟨by decide, by decide +kernel, (no_string_after_open_quote {} _ (by decide)).1,
    (no_string_after_open_quote {} _ (List.forall_mem_nil _)).2 _ (by decide +kernel)⟩

end Lexing
