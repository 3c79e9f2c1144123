import Lexing.Proofs.LineBreaks
import Mathlib.Data.List.Chain

/-!
Neighbours. A token takes as many characters as it can, so that the token behind it starts with a
character that could not go on with the first one. `TokenKind.goesOn` holds the characters that a
token of a kind never leaves behind it, and `TokenKind.mayStart` the characters that one may start
with. Where the second class lies within the first, tokens of these kinds never meet
(`Lexeme.Standard.kind_ne`).

Three pairs need more than a look at one character: blanks before a comment, the two halves of a
symbol and the two slashes of a comment mark. All of it together is `Taken.Adjoins`, which holds
between any two consecutive tokens of a source (`isChain_adjoins`).
-/

namespace Lexing

namespace TokenKind

/-- The characters that a token of this kind may start with. -/
def mayStart : TokenKind → Char → Bool
  | comment, c => isBlank c || c == '/'
  | whitespace, c => isLayout c
  | newline, c => c == '\n'
  | keyword, c => c.isAlpha
  | identifier, c => c.isAlpha || c == ':'
  | number, c => c.isDigit
  | string, c => c == '"'
  | symbol, c => isMark c
  | unknown, c => isMark c
  | endOfInput, _ => false

/-- The characters that a token of this kind takes for as long as there are any. -/
def goesOn : TokenKind → Char → Bool
  | comment, c => c ≠ '\n'
  | whitespace, c => isLayout c
  | keyword, c => isWordChar c
  | identifier, c => isWordChar c
  | number, c => c.isDigit
  | _, _ => false

/-- Only a newline token starts with a line break. -/
theorem ne_break_of_mayStart {k : TokenKind} (hk : k ≠ newline) {c : Char}
    (hc : k.mayStart c = true) : c ≠ '\n' := by
  rintro rfl
  cases k <;> contradiction

end TokenKind

theorem stops_none (rest : List Char) : Stops (fun _ => false) rest := by
  cases rest with
  | nil => exact stops_nil _
  | cons c rest => exact stops_cons_iff.2 rfl

namespace Lexeme

open Lexicon

variable {l l' : Lexeme}

/-! ## The first character of a token, and the one behind it -/

theorem Standard.mayStart (h : l.Standard) : l.span.head?.all l.kind.mayStart = true := by
  cases h with
  | @comment blanks _ _ blank =>
    cases blanks with
    | nil => rfl
    | cons c blanks => simp [TokenKind.mayStart, blank]
  | whitespace layout => exact layout _ (by simp)
  | newline | label | string => rfl
  | keyword alpha => exact alpha
  | name alpha => simp [TokenKind.mayStart, alpha]
  | integer digits => exact digits _ (by simp)
  | fraction digits => exact digits _ (by simp)
  | pair mem => exact (isMark_of_mem_symbols (List.mem_append_left _ mem)).1
  | single mem => exact (isMark_of_mem_symbols (List.mem_append_right _ mem)).1
  | unknown mark => exact mark

theorem Standard.stops (h : l.Standard) : Stops l.kind.goesOn l.rest := by
  cases h with
  | comment _ _ stops => exact stops
  | whitespace _ stops => exact stops
  | keyword _ _ stops => exact stops
  | name _ _ stops => exact stops
  | label _ _ stops => exact stops
  | integer _ stops => exact stops
  | fraction _ _ stops => exact stops
  | newline | string | pair | single | unknown => exact stops_none _

/-- The token behind another one is of no kind whose first characters the other goes on with. -/
theorem Standard.kind_ne (h : l.Standard) (h' : l'.Standard) (hrest : l'.span ++ l'.rest = l.rest)
    {k : TokenKind} (hk : ∀ c, k.mayStart c = true → l.kind.goesOn c = true) : l'.kind ≠ k := by
  rintro rfl
  obtain ⟨c, w, hspan⟩ := List.exists_cons_of_ne_nil h'.span_ne_nil
  have hstart := h'.mayStart
  have hstops := h.stops
  rw [hspan, List.head?_cons, Option.all_some] at hstart
  rw [← hrest, hspan, List.cons_append, stops_cons_iff] at hstops
  exact Bool.eq_false_iff.1 hstops (hk c hstart)

/-! ## The kinds one by one -/

theorem Standard.kind_of_comment (h : l.Standard) (h' : l'.Standard)
    (hrest : l'.span ++ l'.rest = l.rest) (hk : l.kind = .comment) : l'.kind = .newline := by
  by_contra hne
  refine h.kind_ne h' hrest (k := l'.kind) (fun c hc => ?_) rfl
  rw [hk]
  simpa [TokenKind.goesOn] using TokenKind.ne_break_of_mayStart hne hc

/-- Blanks stand before a comment as a part of it, so that only a carriage return keeps whitespace
out of the comment behind it. -/
theorem Standard.return_mem (h : l.Standard) (h' : l'.Standard)
    (hrest : l'.span ++ l'.rest = l.rest) (hk : l.kind = .whitespace) (hk' : l'.kind = .comment) :
    '\r' ∈ l.value := by
  obtain ⟨-, -, layout, stops, noMark⟩ := h.of_whitespace hk
  obtain ⟨blanks, hspan, blank, -, -⟩ := h'.of_comment hk'
  rw [← hrest, hspan] at stops noMark
  cases blanks with
  | nil =>
    by_contra hreturn
    refine noMark (fun c hc => ?_) (by simp)
    have hne : c ≠ '\r' := fun heq => hreturn (heq ▸ hc)
    simpa [isLayout, hne] using layout c hc
  | cons c blanks =>
    rw [List.cons_append, List.cons_append, stops_cons_iff,
      isLayout_of_isBlank (blank c (by simp))] at stops
    contradiction

/-- Behind a word only a colon starts an identifier. -/
theorem Standard.head?_value_of_word (h : l.Standard) (h' : l'.Standard)
    (hrest : l'.span ++ l'.rest = l.rest) (hk : l.kind = .identifier ∨ l.kind = .keyword)
    (hk' : l'.kind = .identifier) : l'.value.head? = some ':' := by
  have hstops : Stops isWordChar l.rest := by
    have hstops := h.stops
    rcases hk with hk | hk <;> rwa [hk] at hstops
  rw [← hrest] at hstops
  cases h' with
  | name alpha =>
    rw [List.cons_append, stops_cons_iff, isWordChar_of_isAlpha alpha] at hstops
    contradiction
  | label => rfl
  | _ => contradiction

/-- The value of an unknown token is its only character. -/
theorem Standard.span_of_unknown (h : l.Standard) (hk : l.kind = .unknown) : l.span = l.value := by
  cases h with
  | unknown => rfl
  | _ => contradiction

/-- A symbol of one character is neither half of a longer symbol nor of a comment mark. -/
theorem Standard.notMem_of_symbol (h : l.Standard) (hk : l.kind = .symbol) {c d : Char}
    (hc : l.value = [c]) (hd : l.rest.head? = some d) : [c, d] ∉ ['/', '/'] :: longSymbols := by
  cases h with
  | pair => simp at hc
  | single mem noPair =>
    cases hc
    rw [Stops, hd] at noPair
    simpa using noPair
  | _ => contradiction

end Lexeme

/-! ## Consecutive tokens of a source -/

namespace Taken

/-- What holds between a token and the one behind it. -/
structure Adjoins (g h : Taken) : Prop where
  /-- A comment goes to the end of its line. -/
  comment : g.token.kind = .comment → h.token.kind = .newline ∨ h.token.kind = .endOfInput
  /-- Layout stands together, and a comment takes the blanks before it. -/
  whitespace : g.token.kind = .whitespace → h.token.kind ≠ .whitespace ∧
    (h.token.kind = .comment → '\r' ∈ g.token.value.toList)
  /-- No word character follows a word. -/
  word : g.token.kind = .identifier ∨ g.token.kind = .keyword →
    h.token.kind ≠ .keyword ∧ h.token.kind ≠ .number ∧
      ¬(h.token.kind = .unknown ∧ h.token.value = "_") ∧
      (h.token.kind = .identifier → h.token.value.toList.head? = some ':')
  number : g.token.kind = .number → h.token.kind ≠ .number
  /-- A symbol is as long as it can be, and two slashes start a comment. -/
  symbol : g.token.kind = .symbol → ∀ c d, g.token.value.toList = [c] → h.span.head? = some d →
    String.ofList [c, d] ∉ Lexicon.standardSymbols ∧ ¬(c = '/' ∧ d = '/')

variable {g h : Taken} {l l' : Lexeme}

theorem Reads.adjoins_end (hend : h.Reads .endOfInput) : Adjoins g h := by
  have hkind : h.token.kind = .endOfInput := hend.kind
  have hspan : h.span = [] := hend.span
  refine ⟨fun _ => .inr hkind, ?_, ?_, ?_, ?_⟩ <;> simp [hkind, hspan]

theorem Reads.adjoins (hg : g.Reads l) (hh : h.Reads l') (hl : l.Standard) (hl' : l'.Standard)
    (hrest : l'.span ++ l'.rest = l.rest) : Adjoins g h := by
  have hne := @Lexeme.Standard.kind_ne l l' hl hl' hrest
  constructor
  · rw [hg.kind, hh.kind]
    exact fun hk => .inl (hl.kind_of_comment hl' hrest hk)
  · rw [hg.kind, hg.value, hh.kind]
    refine fun hk => ⟨hne fun c hc => ?_, hl.return_mem hl' hrest hk⟩
    rw [hk]
    exact hc
  · rw [hg.kind, hh.kind, hh.value]
    intro hk
    have hgoesOn : l.kind.goesOn = isWordChar := by
      rcases hk with hk | hk <;> rw [hk] <;> rfl
    refine ⟨hne fun c hc => ?_, hne fun c hc => ?_, ?_, hl.head?_value_of_word hl' hrest hk⟩
    · rw [hgoesOn]
      exact isWordChar_of_isAlpha hc
    · rw [hgoesOn]
      exact isWordChar_of_isDigit hc
    · rintro ⟨hk', hvalue⟩
      have hspan : l'.span = ['_'] := by
        rw [hl'.span_of_unknown hk', ← hh.value, hvalue]
        rfl
      have hstops := hl.stops
      rw [hgoesOn, ← hrest, hspan, List.cons_append, stops_cons_iff] at hstops
      contradiction
  · rw [hg.kind, hh.kind]
    refine fun hk => hne fun c hc => ?_
    rw [hk]
    exact hc
  · rw [hg.kind, hg.value, hh.span]
    intro hk c d hc hd
    have hhead : l.rest.head? = some d := by
      rw [← hrest, List.head?_append, hd]
      rfl
    have hnot := hl.notMem_of_symbol hk hc hhead
    refine ⟨fun hmem => hnot (List.mem_cons_of_mem _ ?_), ?_⟩
    · exact List.mem_filter.2 ⟨List.mem_map.2 ⟨_, hmem, String.toList_ofList⟩, rfl⟩
    · rintro ⟨rfl, rfl⟩
      exact hnot (by simp)

end Taken

namespace Tokenizer

variable {t u : Tokenizer}

theorem adjoins_nextToken (hL : t.lexicon = .standard) (hne : t.rest ≠ [])
    (hu : u.lexicon = .standard) (hrest : u.rest = t.nextToken.2.rest) :
    Taken.Adjoins ⟨t, t.nextToken.1⟩ ⟨u, u.nextToken.1⟩ := by
  have hg := t.reads_nextToken
  have hh := u.reads_nextToken
  rw [hL] at hg
  rw [hu] at hh
  by_cases hend : u.rest = []
  · rw [hend, Lexicon.lexeme_nil] at hh
    exact hh.adjoins_end
  · refine hg.adjoins hh (Lexeme.standard_lexeme hne) (Lexeme.standard_lexeme hend) ?_
    rw [Lexicon.span_append_rest, hrest, nextToken, hL]

/-- Any two consecutive tokens of a sequence adjoin. -/
theorem isChain_sequence (hL : t.lexicon = .standard) : t.sequence.IsChain Taken.Adjoins := by
  induction t using next_induction with
  | ended t hn =>
    rw [sequence_of_next?_eq_none hn]
    exact .nil
  | step t token u hn ih =>
    have hu : u.lexicon = .standard := (lexicon_of_next? hn).trans hL
    obtain ⟨-, htoken, hafter⟩ := next?_eq_some hn
    rw [sequence_of_next?_eq_some hn, List.isChain_cons]
    refine ⟨fun h hh => ?_, ih hu⟩
    obtain ⟨post, hpost⟩ := List.head?_eq_some_iff.1 hh
    obtain ⟨v, hv, hbefore, -⟩ := next?_of_sequence_eq_cons hpost
    obtain ⟨hf, htoken', -⟩ := next?_eq_some hv
    -- Another token follows, so that this one is not the end of input.
    have hne : t.rest ≠ [] := by
      intro hrest
      rw [finished_of_next? hn, htoken, isEnd_nextToken, isExhausted, hrest] at hf
      contradiction
    have hadjoins := adjoins_nextToken hL hne hu (by rw [hafter])
    rwa [← htoken, ← htoken', ← hbefore] at hadjoins

end Tokenizer

/-- Between any two consecutive tokens of a source it shows that the first one has taken as much as
it could. The tokens stand in order, and their spans make up the source. -/
theorem isChain_adjoins (source : String) :
    tokenize source = (Tokenizer.load {} source).sequence.map Taken.token ∧
      Taken.text (Tokenizer.load {} source).sequence = source.toList ∧
      (Tokenizer.load {} source).sequence.IsChain Taken.Adjoins :=
  ⟨tokenize_eq_sequence source, Tokenizer.text_sequence rfl, Tokenizer.isChain_sequence rfl⟩

/-- The blank before the mark does not go into the comment, since it belongs to the whitespace that
starts with the carriage return. -/
example : (tokenize "\r //").map (·.kind) = [.whitespace, .comment, .endOfInput] := by
  decide +kernel

end Lexing
