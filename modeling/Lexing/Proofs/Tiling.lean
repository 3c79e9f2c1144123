import Lexing.Proofs.Rules
import Lexing.Proofs.Run

/-!
Tiling: the tokens of a run cut the source into pieces without gaps or overlaps, whatever the
lexicon is and however it changes on the way. What a token says of its piece is `Spells`: the kind
fixes how the value is read off the piece.
-/

namespace Lexing

/-- Nothing is asked of patterns beyond that their matches lie within the text: every search with
such matches is that of a pattern. -/
theorem Pattern.exists_find?_eq {f : List Char → Option Match}
    (h : ∀ text m, f text = some m → m.Within text) : ∃ p : Pattern, p.find? = f := by
  let p : Pattern :=
    { matchAt? := fun text i => (f text).filter fun m => m.whole.start = i
      start_eq := fun text i m hm => by simpa using (Option.filter_eq_some_iff.1 hm).2
      within := fun text i m hm => h text m (Option.filter_eq_some_iff.1 hm).1 }
  refine ⟨p, funext fun text => ?_⟩
  cases hf : f text with
  | none => simp [Pattern.find?, p, hf]
  | some m =>
    have hw := h text m hf
    have hle : m.whole.start ≤ text.length := Nat.le_trans hw.start_le hw.stop_le
    rw [Pattern.find?, List.findSome?_eq_some_iff]
    refine ⟨List.range m.whole.start, m.whole.start,
      List.range' (m.whole.start + 1) (text.length - m.whole.start), ?_, ?_, ?_⟩
    · have hlen : text.length + 1 = m.whole.start + (text.length - m.whole.start + 1) := by omega
      rw [List.range_eq_range', List.range_eq_range', ← List.range'_succ, hlen,
        ← List.range'_append_1, Nat.zero_add]
    · simp [p, hf]
    · intro i hi
      have hlt := List.mem_range.1 hi
      have hne : m.whole.start ≠ i := by omega
      simp [p, hf, hne]

/-- How the value of a token is read off its span, for each kind that covers text. What is known of
a comment depends on `p`, the pattern that recognised it. -/
inductive Spells (p : Pattern) : TokenKind → List Char → List Char → Prop
  | whitespace (w) : Spells p .whitespace w w
  | symbol (w) : Spells p .symbol w w
  | number (w) : Spells p .number w w
  | unknown (c) : Spells p .unknown [c] [c]
  | identifier (w) : Spells p .identifier (lowered w) w
  | keyword (w) : Spells p .keyword (lowered w) w
  | string (v) : Spells p .string v ('"' :: v ++ ['"'])
  | newline : Spells p .newline [] ['\n']
  /-- The value lies somewhere in the span; it is all that follows the mark in standard comments. -/
  | comment {value span} (inside : value <:+: span)
      (standard : p = .comment → ∃ blanks, (∀ c ∈ blanks, isBlank c = true) ∧
        '\n' ∉ value ∧ span = blanks ++ '/' :: '/' :: value) :
      Spells p .comment value span

namespace Lexeme

/-- The lexeme's value is read off its span as its kind demands. -/
def Spelled (l : Lexeme) (p : Pattern) : Prop :=
  Spells p l.kind l.value l.span

variable {p : Pattern} {l : Lexeme} {text : List Char}

theorem spelled_of_whitespace? (h : whitespace? text = some l) : l.Spelled p := by
  rw [whitespace?] at h
  split at h
  · contradiction
  · cases h
    exact .whitespace _

theorem spelled_of_newline? (h : newline? text = some l) : l.Spelled p := by
  cases text with
  | nil => contradiction
  | cons c rest =>
    rw [newline?] at h
    split at h
    · rename_i hc
      cases h
      subst hc
      exact .newline
    · contradiction

theorem spelled_of_string? (h : string? text = some l) : l.Spelled p := by
  obtain ⟨q, r, -, -, -, rfl⟩ := string?_eq_some_iff.1 h
  exact .string q

theorem spelled_unrecognised (hne : text ≠ []) : (unrecognised text).Spelled p := by
  cases text with
  | nil => contradiction
  | cons c rest => exact .unknown c

end Lexeme

namespace Lexicon

variable {L : Lexicon} {text : List Char} {l : Lexeme}

theorem spelled_of_comment? (h : L.comment? text = some l) : l.Spelled L.comment := by
  have hkind : l.kind = .comment ∧ l.value <:+: l.span := by
    obtain ⟨m, hm, rfl⟩ := Option.map_eq_some_iff.1 h
    exact ⟨rfl, Pattern.content_of_leading? hm⟩
  rw [Lexeme.Spelled, hkind.1]
  refine .comment hkind.2 fun hstandard => ?_
  rw [comment?_eq hstandard] at h
  obtain ⟨body, -, rfl⟩ := Option.map_eq_some_iff.1 h
  refine ⟨_, List.all_eq_true.1 List.all_takeWhile, ?_, rfl⟩
  intro hmem
  simpa using List.all_eq_true.1 List.all_takeWhile _ hmem

theorem spelled_of_keyword? (h : L.keyword? text = some l) : l.Spelled L.comment := by
  simp only [keyword?] at h
  split at h
  · cases h
    exact .keyword _
  · contradiction

theorem spelled_of_symbol? (h : L.symbol? text = some l) : l.Spelled L.comment := by
  obtain ⟨s, -, rfl⟩ := Option.map_eq_some_iff.1 h
  exact .symbol _

theorem spelled_of_identifier? (h : L.identifier? text = some l) : l.Spelled L.comment := by
  obtain ⟨m, -, rfl⟩ := Option.map_eq_some_iff.1 h
  exact .identifier _

theorem spelled_of_number? (h : L.number? text = some l) : l.Spelled L.comment := by
  obtain ⟨m, -, rfl⟩ := Option.map_eq_some_iff.1 h
  exact .number _

theorem spelled_of_lexeme? {r : Rule} (hne : text ≠ []) (h : L.lexeme? text r = some l) :
    l.Spelled L.comment := by
  cases r with
  | comment => exact spelled_of_comment? h
  | endOfInput =>
    obtain ⟨c, rest, rfl⟩ := List.exists_cons_of_ne_nil hne
    contradiction
  | whitespace => exact Lexeme.spelled_of_whitespace? h
  | keyword => exact spelled_of_keyword? h
  | newline => exact Lexeme.spelled_of_newline? h
  | symbol => exact spelled_of_symbol? h
  | identifier => exact spelled_of_identifier? h
  | string => exact Lexeme.spelled_of_string? h
  | number => exact spelled_of_number? h

/-- Whatever a text starts with spells its span. -/
theorem spelled_lexeme (L : Lexicon) (hne : text ≠ []) : (L.lexeme text).Spelled L.comment := by
  rcases lexeme_cases L text with ⟨r, -, hr⟩ | ⟨heq, -⟩
  · exact spelled_of_lexeme? hne hr
  · rw [heq]
    exact Lexeme.spelled_unrecognised hne

end Lexicon

namespace Tokenizer

variable {t v : Tokenizer} {gs : List Taken}

theorem span_append_rest_nextToken (t : Tokenizer) (token : Token) :
    (Taken.mk t token).span ++ t.nextToken.2.rest = t.rest :=
  Lexicon.span_append_rest _ _

/-- A run tiles the text that it leaves behind; the end of input covers none of it. -/
theorem Run.flatten_spans (h : Run t gs v) :
    ((gs.filter fun g => !g.token.isEnd).map Taken.span).flatten ++ v.rest = t.rest := by
  induction h with
  | start => rfl
  | silent _ same ih => rw [same.rest, ih]
  | @token gs u v _ same ih =>
    have hspan := span_append_rest_nextToken u u.nextToken.1
    rw [same.rest, ← ih, ← hspan, List.filter_append]
    by_cases he : u.nextToken.1.isEnd = true
    · -- At the end of the text nothing is left to be covered.
      have hnil : (Taken.mk u u.nextToken.1).span = [] := by
        simp [Taken.span, isEnd_nextToken_iff.1 he]
      simp [he, hnil]
    · simp [he]

theorem Run.spells (h : Run t gs v) {g : Taken} (hg : g ∈ gs) (he : g.token.isEnd = false) :
    g.span ≠ [] ∧
      Spells g.before.lexicon.comment g.token.kind g.token.value.toList g.span := by
  have htoken := h.token_eq hg
  rw [htoken] at he ⊢
  have hne : g.before.rest ≠ [] := isEnd_nextToken_eq_false_iff.1 he
  have hvalue : g.before.nextToken.1.value.toList =
      (g.before.lexicon.lexeme g.before.rest).value := String.toList_ofList
  rw [hvalue]
  exact ⟨Lexicon.span_lexeme_ne_nil _ hne, Lexicon.spelled_lexeme _ hne⟩

/-- The tokens that are taken from a source, save for the end of input, cover pieces of it that
follow each other and are followed by the text that is left. No piece is empty, and each token
spells its piece. -/
theorem taken_tile_source (t : Tokenizer) (source : String) {cs : List Call}
    (h : ∀ c ∈ cs, c.isLoad = false) :
    let gs := ((t.load source).taken cs).filter fun g => !g.token.isEnd
    (gs.map Taken.span).flatten ++ ((t.load source).calls cs).2.rest = source.toList ∧
      ∀ g ∈ gs, g.span ≠ [] ∧
        Spells g.before.lexicon.comment g.token.kind g.token.value.toList g.span := by
  have hrun := run_calls h (t.load source)
  refine ⟨hrun.flatten_spans, ?_⟩
  intro g hg
  obtain ⟨hmem, hend⟩ := List.mem_filter.1 hg
  exact hrun.spells hmem (by simpa using hend)

/-- Words with capitals, and symbols that change between the tokens to one that is not ASCII. -/
theorem taken_tile_source_of_symbols :
    let t : Tokenizer := ({} : Tokenizer).load "If+Ab//É\n\"\\\"A\"é"
    let cs : List Call :=
      [.nextToken, .next, .next, .nextToken, .nextToken, .set (.symbols ["é", ""]), .next, .next,
        .nextToken, .next]
    let gs := (t.taken cs).filter fun g => !g.token.isEnd
    (∀ c ∈ cs, c.isLoad = false) ∧
      gs.map Taken.span =
        ["If", "+", "Ab", "//É", "\n", "\"\\\"A\"", "é"].map String.toList ∧
      gs.map (fun g => (g.token.kind, g.token.value)) =
        [(.keyword, "if"), (.symbol, "+"), (.identifier, "ab"), (.comment, "É"), (.newline, ""),
          (.string, "\\\"A"), (.symbol, "é")] ∧
      (gs.map Taken.span).flatten ++ (t.calls cs).2.rest =
        "If+Ab//É\n\"\\\"A\"é".toList ∧
      ∀ g ∈ gs, g.span ≠ [] ∧
        Spells g.before.lexicon.comment g.token.kind g.token.value.toList g.span :=
  ⟨by decide, by decide, by decide, taken_tile_source {} _ (by decide)⟩

end Tokenizer

end Lexing
