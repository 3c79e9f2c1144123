import Lexing.Lexeme

/-!
What holds of the lexemes of every lexicon, whatever its patterns and tables are. A lexeme of a text
starts that text (`Lexeme.Starts`): span and rest together are the text, the span is empty only at
the end of the text, and the end is reported there and nowhere else.
-/

namespace Lexing

/-- A lexeme starts a text when its span and rest make up the text, and it consumes something or
else reports that the text is empty. -/
structure Lexeme.Starts (l : Lexeme) (text : List Char) : Prop where
  append_eq : l.span ++ l.rest = text
  kind_iff : l.kind = .endOfInput ↔ text = []
  span_ne_nil : text ≠ [] → l.span ≠ []

namespace Lexeme

variable {l : Lexeme} {text : List Char}

theorem Starts.length_rest_lt (h : l.Starts text) (hne : text ≠ []) :
    l.rest.length < text.length := by
  have hlen := congrArg List.length h.append_eq
  have hpos := List.length_pos_iff.2 (h.span_ne_nil hne)
  rw [List.length_append] at hlen
  omega

theorem starts_ofLength {kind : TokenKind} {value : List Char → List Char} {n : Nat}
    (hk : kind ≠ .endOfInput) (hpos : 0 < n) (hle : n ≤ text.length) :
    (ofLength kind value text n).Starts text := by
  have hne : text ≠ [] := List.length_pos_iff.1 (Nat.lt_of_lt_of_le hpos hle)
  refine ⟨List.take_append_drop n text, ?_, ?_⟩
  · exact ⟨fun h => absurd h hk, fun h => absurd h hne⟩
  · intro _ h
    rw [ofLength, List.take_eq_nil_iff] at h
    rcases h with h | h
    · omega
    · exact hne h

theorem starts_endOfInput : endOfInput.Starts [] :=
  ⟨rfl, by simp [endOfInput], by simp⟩

theorem starts_unrecognised (text : List Char) : (unrecognised text).Starts text := by
  cases text with
  | nil => exact starts_endOfInput
  | cons c rest => exact ⟨rfl, by simp [unrecognised], by simp [unrecognised]⟩

/-! ## One rule -/

theorem starts_of_endOfInput? (h : endOfInput? text = some l) : l.Starts text := by
  cases text with
  | nil =>
    cases h
    exact starts_endOfInput
  | cons c rest => contradiction

theorem starts_of_whitespace? (h : whitespace? text = some l) : l.Starts text := by
  rw [whitespace?] at h
  split at h
  · contradiction
  · cases h
    exact starts_ofLength (by decide) (by omega) (runLength_le _ _)

theorem starts_of_newline? (h : newline? text = some l) : l.Starts text := by
  cases text with
  | nil => contradiction
  | cons c rest =>
    rw [newline?] at h
    split at h
    · cases h
      exact ⟨rfl, by simp, by simp⟩
    · contradiction

theorem starts_of_string? (h : string? text = some l) : l.Starts text := by
  cases text with
  | nil => contradiction
  | cons c body =>
    rw [string?] at h
    split at h
    · obtain ⟨i, hi, rfl⟩ := Option.map_eq_some_iff.1 h
      refine ⟨?_, by simp, by simp⟩
      simp [List.take_append_drop]
    · contradiction

theorem starts_of_matching? {p : Pattern} {kind : TokenKind} {value : List Char → List Char}
    (hk : kind ≠ .endOfInput) (h : matching? p kind value text = some l) : l.Starts text := by
  obtain ⟨m, hm, rfl⟩ := Option.map_eq_some_iff.1 h
  exact starts_ofLength hk (Pattern.stop_pos_of_leading? hm) (Pattern.stop_le_of_leading? hm)

end Lexeme

namespace Lexicon

variable {L : Lexicon} {text : List Char} {l : Lexeme}

theorem starts_of_comment? (h : L.comment? text = some l) : l.Starts text := by
  obtain ⟨m, hm, rfl⟩ := Option.map_eq_some_iff.1 h
  exact Lexeme.starts_ofLength (by decide) (Pattern.stop_pos_of_leading? hm)
    (Pattern.stop_le_of_leading? hm)

theorem starts_of_keyword? (h : L.keyword? text = some l) : l.Starts text := by
  simp only [keyword?] at h
  split at h
  · rename_i hn
    cases h
    exact Lexeme.starts_ofLength (by decide) (by omega) (runLength_le _ _)
  · contradiction

theorem starts_of_symbol? (h : L.symbol? text = some l) : l.Starts text := by
  obtain ⟨s, hs, rfl⟩ := Option.map_eq_some_iff.1 h
  have hne := L.symbols_ne_nil s (List.mem_of_find?_eq_some hs)
  have hpre : s <+: text := by
    have := (List.find?_eq_some_iff_append.1 hs).1
    simpa using this
  exact Lexeme.starts_ofLength (by decide) (List.length_pos_iff.2 hne) hpre.length_le

theorem starts_of_lexeme? {r : Rule} (h : L.lexeme? text r = some l) : l.Starts text := by
  cases r with
  | comment => exact starts_of_comment? h
  | endOfInput => exact Lexeme.starts_of_endOfInput? h
  | whitespace => exact Lexeme.starts_of_whitespace? h
  | keyword => exact starts_of_keyword? h
  | newline => exact Lexeme.starts_of_newline? h
  | symbol => exact starts_of_symbol? h
  | identifier => exact Lexeme.starts_of_matching? (by decide) h
  | string => exact Lexeme.starts_of_string? h
  | number => exact Lexeme.starts_of_matching? (by decide) h

/-! ## The first rule that accepts -/

theorem starts_lexeme (L : Lexicon) (text : List Char) : (L.lexeme text).Starts text := by
  unfold lexeme recognise?
  cases h : L.rules.findSome? (L.lexeme? text) with
  | none => exact Lexeme.starts_unrecognised text
  | some l =>
    obtain ⟨_, r, _, _, hr, _⟩ := List.findSome?_eq_some_iff.1 h
    exact starts_of_lexeme? hr

@[simp] theorem span_append_rest (L : Lexicon) (text : List Char) :
    (L.lexeme text).span ++ (L.lexeme text).rest = text :=
  (L.starts_lexeme text).append_eq

theorem kind_lexeme_eq_endOfInput_iff :
    (L.lexeme text).kind = .endOfInput ↔ text = [] :=
  (L.starts_lexeme text).kind_iff

theorem span_lexeme_ne_nil (L : Lexicon) (h : text ≠ []) : (L.lexeme text).span ≠ [] :=
  (L.starts_lexeme text).span_ne_nil h

theorem length_rest_lexeme_lt (L : Lexicon) (h : text ≠ []) :
    (L.lexeme text).rest.length < text.length :=
  (L.starts_lexeme text).length_rest_lt h

/-- Nothing is consumed at the end of a text. -/
@[simp] theorem span_lexeme_nil (L : Lexicon) : (L.lexeme []).span = [] :=
  (List.append_eq_nil_iff.1 (L.span_append_rest [])).1

@[simp] theorem rest_lexeme_nil (L : Lexicon) : (L.lexeme []).rest = [] :=
  (List.append_eq_nil_iff.1 (L.span_append_rest [])).2

end Lexicon

end Lexing
