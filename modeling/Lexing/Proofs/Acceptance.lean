import Lexing.Proofs.LineBreaks

/-!
What strict reading accepts. It gives the tokens of a source when all of them are known, and refuses
the source at its first unknown token otherwise. The reason that it gives is read off the token alone,
yet it says what is wrong with the text there (`Cause.Explains`): a quote is unknown only when nothing
behind it closes the literal, and every other unknown character starts no token at all.
-/

namespace Lexing

/-- The cause says why no token starts at a character `c` that stands before `rest`. -/
structure Cause.Explains (cause : Cause) (c : Char) (rest : List Char) : Prop where
  /-- A quote is to blame for the quotes behind it, none of which closes its literal. -/
  unterminated_iff : cause = .unterminatedString ↔
    c = '"' ∧ ∀ q r, rest = q ++ '"' :: r → isEscaped q = true
  /-- Any other character is named, and starts no word, number, layout or line break. -/
  unrecognised : cause ≠ .unterminatedString →
    cause = .unrecognisedToken (String.singleton c) ∧ c ≠ '"' ∧ c.isAlpha = false ∧
      c.isDigit = false ∧ c ∉ [' ', '\t', '\r', '\n']

theorem Diagnostic.explains_ofUnknown {token : Token} {c : Char} {rest : List Char}
    (hvalue : token.value = String.singleton c)
    (h : (Lexeme.mk .unknown [c] [c] rest).Standard) :
    (ofUnknown token).cause.Explains c rest := by
  obtain ⟨mark, noLiteral⟩ : isMark c = true ∧ (c = '"' → QuotesEscaped false rest) := by
    cases h with
    | unknown mark _ _ _ noLiteral => exact ⟨mark, noLiteral⟩
  have hquote : String.singleton c = "\"" ↔ c = '"' := by
    rw [← String.toList_inj]
    simp
  simp only [ofUnknown, hvalue, hquote]
  by_cases hc : c = '"'
  · rw [if_pos hc]
    refine ⟨iff_of_true rfl ⟨hc, fun q r hq => ?_⟩, fun hne => absurd rfl hne⟩
    rw [← escapedAfter_false]
    exact noLiteral hc q r hq
  · obtain ⟨hlayout, hbreak, halpha, hdigit⟩ := isMark_iff.1 mark
    have hspace := mt isLayout_iff.2 (Bool.eq_false_iff.1 hlayout)
    rw [if_neg hc]
    refine ⟨iff_of_false (by simp) fun h => hc h.1, fun _ => ⟨rfl, hc, halpha, hdigit, ?_⟩⟩
    simp only [not_or] at hspace
    simp [hspace, hbreak]

namespace Tokenizer

variable {t : Tokenizer}

/-- An unknown token is a character that the grammar has no other token for. -/
theorem standard_of_unknown (hL : t.lexicon = .standard) (hk : t.nextToken.1.kind = .unknown) :
    ∃ c rest, t.rest = c :: rest ∧ t.nextToken.1.value = String.singleton c ∧
      (Lexeme.mk .unknown [c] [c] rest).Standard := by
  change (t.lexicon.lexeme t.rest).kind = .unknown at hk
  obtain ⟨c, rest, hrest, hlex, -⟩ := Lexicon.of_kind_lexeme_eq_unknown hk
  refine ⟨c, rest, hrest, by simp [nextToken, hlex], ?_⟩
  rw [← hlex, hL]
  exact Lexeme.standard_lexeme (by simp [hrest])

end Tokenizer

theorem tokenizeStrict_eq_ok_iff {source : String} {tokens : List Token} :
    tokenizeStrict source = .ok tokens ↔
      tokens = tokenize source ∧ ∀ token ∈ tokens, token.kind ≠ .unknown := by
  rw [tokenizeStrict_eq]
  cases hf : (tokenize source).find? (·.kind = .unknown) with
  | none =>
    have hknown : ∀ token ∈ (tokenize source), token.kind ≠ .unknown := by
      simpa using List.find?_eq_none.1 hf
    constructor
    · intro h
      cases h
      exact ⟨rfl, hknown⟩
    · rintro ⟨rfl, -⟩
      rfl
  | some token =>
    have hunknown : token.kind = .unknown := by simpa using List.find?_some hf
    refine iff_of_false (by simp) ?_
    rintro ⟨rfl, hknown⟩
    exact hknown token (List.mem_of_find?_eq_some hf) hunknown

theorem tokenizeStrict_eq_error_iff {source : String} {d : Diagnostic} :
    tokenizeStrict source = .error d ↔
      ∃ pre token post, tokenize source = pre ++ token :: post ∧
        (∀ token' ∈ pre, token'.kind ≠ .unknown) ∧ token.kind = .unknown ∧
        d = .ofUnknown token := by
  have hfind (token : Token) : (tokenize source).find? (·.kind = .unknown) = some token ↔
      token.kind = .unknown ∧ ∃ pre post, tokenize source = pre ++ token :: post ∧
        ∀ token' ∈ pre, token'.kind ≠ .unknown := by
    rw [List.find?_eq_some_iff_append]
    simp
  rw [tokenizeStrict_eq]
  constructor
  · intro h
    cases hf : (tokenize source).find? (·.kind = .unknown) with
    | none =>
      rw [hf] at h
      contradiction
    | some token =>
      rw [hf] at h
      obtain ⟨hk, pre, post, htokens, hpre⟩ := (hfind token).1 hf
      exact ⟨pre, token, post, htokens, hpre, hk, (Except.error.inj h).symm⟩
  · rintro ⟨pre, token, post, htokens, hpre, hk, rfl⟩
    rw [(hfind token).2 ⟨hk, pre, post, htokens, hpre⟩]

/-- Strict reading gives tokens exactly when no token of the source is unknown, and then gives all
of them. Otherwise it refuses the source at the position of the first unknown token, for a cause that
explains why nothing else starts there. -/
theorem tokenizeStrict_agrees (source : String) :
    (∀ tokens, tokenizeStrict source = .ok tokens ↔
      tokens = tokenize source ∧ ∀ token ∈ tokens, token.kind ≠ .unknown) ∧
    ((∃ token ∈ tokenize source, token.kind = .unknown) →
      ∃ pre c p post rest cause,
        tokenize source = pre ++ ⟨.unknown, String.singleton c, p⟩ :: post ∧
          (∀ token ∈ pre, token.kind ≠ .unknown) ∧
          ((Tokenizer.load {} source).take pre.length).2.rest = c :: rest ∧
          tokenizeStrict source = .error ⟨cause, p⟩ ∧ cause.Explains c rest) := by
  refine ⟨fun tokens => tokenizeStrict_eq_ok_iff, ?_⟩
  rintro ⟨token, hmem, hk⟩
  cases hd : tokenizeStrict source with
  | ok tokens =>
    obtain ⟨rfl, hknown⟩ := tokenizeStrict_eq_ok_iff.1 hd
    exact absurd hk (hknown token hmem)
  | error d =>
    obtain ⟨pre, g, post, hseq, hunknown, rfl, hpre⟩ :=
      Tokenizer.sequence_of_drainStrict_eq_error hd
    obtain ⟨_, hrun⟩ := Tokenizer.run_sequence (Tokenizer.load {} source)
    have hg : g ∈ (Tokenizer.load {} source).sequence := by simp [hseq]
    have htoken := hrun.token_eq hg
    obtain ⟨c, rest, hrest, hvalue, hstandard⟩ := Tokenizer.standard_of_unknown
      (Tokenizer.lexicon_of_mem_sequence hg) (htoken ▸ hunknown)
    rw [← htoken] at hvalue
    refine ⟨pre.map Taken.token, c, g.token.position, post.map Taken.token, rest, _, ?_, ?_, ?_, rfl,
      Diagnostic.explains_ofUnknown hvalue hstandard⟩
    · rw [tokenize_eq_sequence, hseq, List.map_append, List.map_cons, ← hunknown, ← hvalue]
    · intro token htoken
      obtain ⟨g', hg', rfl⟩ := List.mem_map.1 htoken
      exact hpre g' hg'
    · rw [List.length_map, Tokenizer.take_of_sequence_eq hseq, hrest]

/-- Both quotes behind the first one are escaped, the last of them behind three backslashes. -/
theorem tokenizeStrict_agrees_of_escaped :
    let source := "if \"\\\"\\\\\\\" @"
    (∃ token ∈ tokenize source, token.kind = .unknown) ∧
      tokenizeStrict source = .error ⟨.unterminatedString, ⟨1, 4⟩⟩ ∧
      ∃ pre c p post rest cause,
        tokenize source = pre ++ ⟨.unknown, String.singleton c, p⟩ :: post ∧
          (∀ token ∈ pre, token.kind ≠ .unknown) ∧
          ((Tokenizer.load {} source).take pre.length).2.rest = c :: rest ∧
          tokenizeStrict source = .error ⟨cause, p⟩ ∧ cause.Explains c rest :=
  ⟨by decide +kernel, by decide +kernel,
    (tokenizeStrict_agrees _).2 (by decide +kernel)⟩

end Lexing
