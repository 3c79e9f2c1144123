import Lexing.Lexeme.Lemmas
import Lexing.Proofs.Escape

/-!
What the rules accept, in pieces of the text where the rules count characters. `lexeme_cases` says
which rule decides; after it come the rules that do the same in every lexicon, and what is known of
keywords, symbols and patterns whatever the tables hold.
-/

namespace Lexing

/-- The kind of the tokens that a rule accepts. -/
def Rule.kind : Rule → TokenKind
  | comment => .comment
  | endOfInput => .endOfInput
  | whitespace => .whitespace
  | keyword => .keyword
  | newline => .newline
  | symbol => .symbol
  | identifier => .identifier
  | string => .string
  | number => .number

theorem Rule.eq_of_kind_eq {r r' : Rule} (h : r.kind = r'.kind) : r = r' := by
  cases r <;> cases r' <;> first | rfl | contradiction

namespace Lexeme

variable {text : List Char}

/-! ## Pieces -/

theorem ofLength_runLength (kind : TokenKind) (value : List Char → List Char) (p : Char → Bool)
    (text : List Char) :
    ofLength kind value text (runLength p text) =
      ⟨kind, value (text.takeWhile p), text.takeWhile p, text.dropWhile p⟩ := by
  rw [ofLength, take_runLength, drop_runLength]

/-- The comment with these blanks before its mark and this text after it. -/
def comment (blanks body : List Char) : Lexeme :=
  ⟨.comment, firstLine body, blanks ++ '/' :: '/' :: firstLine body, body.dropWhile (· ≠ '\n')⟩

theorem ofLength_commentMatch (blanks body : List Char) :
    ofLength .comment
        (fun _ =>
          (Pattern.commentMatch blanks.length body).content.of (blanks ++ '/' :: '/' :: body))
        (blanks ++ '/' :: '/' :: body) (Pattern.commentMatch blanks.length body).whole.stop =
      comment blanks body := by
  have hstop : (Pattern.commentMatch blanks.length body).whole.stop =
      (blanks ++ '/' :: '/' :: firstLine body).length := by
    simp only [Pattern.commentMatch, List.length_append, List.length_cons]
    omega
  have hsplit : blanks ++ '/' :: '/' :: body =
      (blanks ++ '/' :: '/' :: firstLine body) ++ body.dropWhile (· ≠ '\n') := by
    simp [firstLine]
  have hvalue : (blanks ++ '/' :: '/' :: firstLine body).drop (blanks.length + 2) =
      firstLine body := by
    rw [← List.drop_drop, List.drop_left]
    rfl
  rw [ofLength, hstop, hsplit, List.take_left, List.drop_left, comment]
  congr 1
  -- The group begins behind the mark and ends where the whole match does.
  show (((blanks ++ '/' :: '/' :: firstLine body) ++ body.dropWhile (· ≠ '\n')).take
    (Pattern.commentMatch blanks.length body).whole.stop).drop (blanks.length + 2) = _
  rw [hstop, List.take_left, hvalue]

theorem ofLength_literal (q r : List Char) :
    (⟨.string, (q ++ '"' :: r).take q.length, ('"' :: (q ++ '"' :: r)).take (q.length + 2),
      (q ++ '"' :: r).drop (q.length + 1)⟩ : Lexeme) = ⟨.string, q, '"' :: q ++ ['"'], r⟩ := by
  have hq : q.take (q.length + 1) = q := List.take_of_length_le (Nat.le_succ _)
  simp [List.take_append, List.drop_append, hq]

/-! ## Rules that every lexicon shares -/

theorem whitespace?_cons (c : Char) (rest : List Char) :
    whitespace? (c :: rest) =
      if isLayout c then
        some ⟨.whitespace, (c :: rest).takeWhile isLayout, (c :: rest).takeWhile isLayout,
          (c :: rest).dropWhile isLayout⟩
      else none := by
  rw [whitespace?, ofLength_runLength]
  by_cases hc : isLayout c = true
  · have hpos : 0 < runLength isLayout (c :: rest) := runLength_pos_iff.2 hc
    rw [if_neg (by omega), if_pos hc]
    rfl
  · have hzero : runLength isLayout (c :: rest) = 0 := by simp [runLength, hc]
    rw [if_pos hzero, if_neg hc]

/-- A literal is a body whose quotes are all escaped, between two quotes of which the second is
not. -/
theorem string?_eq_some_iff {l : Lexeme} :
    string? text = some l ↔
      ∃ q r, text = '"' :: (q ++ '"' :: r) ∧ escapedAfter false q = false ∧
        QuotesEscaped false q ∧ l = ⟨.string, q, '"' :: q ++ ['"'], r⟩ := by
  cases text with
  | nil => simp [string?]
  | cons c body =>
    by_cases hc : c = '"'
    · subst hc
      rw [string?, if_pos rfl, Option.map_eq_some_iff]
      constructor
      · intro h
        obtain ⟨i, hi, rfl⟩ := h
        obtain ⟨q, r, rfl, rfl, hesc, hq⟩ := closingQuote?_eq_some_iff.1 hi
        exact ⟨q, r, rfl, hesc, hq, ofLength_literal q r⟩
      · intro h
        obtain ⟨q, r, hbody, hesc, hq, rfl⟩ := h
        obtain ⟨-, rfl⟩ := List.cons.inj hbody
        exact ⟨q.length, closingQuote?_eq_some_iff.2 ⟨q, r, rfl, rfl, hesc, hq⟩,
          ofLength_literal q r⟩
    · rw [string?, if_neg hc]
      constructor
      · intro h
        contradiction
      · intro h
        obtain ⟨q, r, htext, -⟩ := h
        exact absurd (List.cons.inj htext).1 hc

theorem matching?_ofLength (length : List Char → Nat) (le : ∀ text, length text ≤ text.length)
    (kind : TokenKind) (value : List Char → List Char) (text : List Char) :
    matching? (.ofLength length le) kind value text =
      if length text = 0 then none else some (ofLength kind value text (length text)) := by
  rw [matching?, Pattern.leading?_ofLength]
  split <;> rfl

end Lexeme

namespace Lexicon

variable {L : Lexicon} {text : List Char}

/-! ## Which rule decides -/

theorem kind_of_lexeme? {r : Rule} {l : Lexeme} (h : L.lexeme? text r = some l) :
    l.kind = r.kind := by
  cases r with
  | comment | symbol | identifier | number =>
    obtain ⟨_, -, rfl⟩ := Option.map_eq_some_iff.1 h
    rfl
  | endOfInput =>
    cases text with
    | nil => cases h; rfl
    | cons c rest => contradiction
  | whitespace =>
    simp only [lexeme?, Lexeme.whitespace?] at h
    split at h
    · contradiction
    · cases h; rfl
  | keyword =>
    simp only [lexeme?, keyword?] at h
    split at h
    · cases h; rfl
    · contradiction
  | newline =>
    cases text with
    | nil => contradiction
    | cons c rest =>
      simp only [lexeme?, Lexeme.newline?] at h
      split at h
      · cases h; rfl
      · contradiction
  | string =>
    obtain ⟨q, r, -, -, -, rfl⟩ := Lexeme.string?_eq_some_iff.1 h
    rfl

/-- Either a rule of the lexicon accepts what the text starts with, or none accepts anything. -/
theorem lexeme_cases (L : Lexicon) (text : List Char) :
    (∃ r ∈ L.rules, L.lexeme? text r = some (L.lexeme text)) ∨
      L.lexeme text = .unrecognised text ∧ ∀ r ∈ L.rules, L.lexeme? text r = none := by
  unfold lexeme recognise?
  cases h : L.rules.findSome? (L.lexeme? text) with
  | none => exact .inr ⟨rfl, List.findSome?_eq_none_iff.1 h⟩
  | some l => exact .inl (List.exists_of_findSome?_eq_some h)

/-- The kind of a token that covers text names the rule that has found it. -/
theorem lexeme?_of_kind_eq {r : Rule} (h : (L.lexeme text).kind = r.kind) (hr : r ≠ .endOfInput) :
    r ∈ L.rules ∧ L.lexeme? text r = some (L.lexeme text) := by
  rcases lexeme_cases L text with ⟨r', hmem, hr'⟩ | ⟨heq, -⟩
  · have hrule : r' = r := Rule.eq_of_kind_eq ((kind_of_lexeme? hr').symm.trans h)
    exact hrule ▸ ⟨hmem, hr'⟩
  · rw [heq] at h
    cases text with
    | nil =>
      have hrule : .endOfInput = r := Rule.eq_of_kind_eq h
      exact absurd hrule.symm hr
    | cons c rest => cases r <;> contradiction

theorem lexeme_nil (L : Lexicon) : L.lexeme [] = .endOfInput := by
  rcases lexeme_cases L [] with ⟨r, -, hr⟩ | ⟨heq, -⟩
  · have hkind : r.kind = .endOfInput :=
      (kind_of_lexeme? hr).symm.trans (kind_lexeme_eq_endOfInput_iff.2 rfl)
    cases r <;> try contradiction
    exact (Option.some.inj hr).symm
  · exact heq

theorem of_kind_lexeme_eq_unknown (h : (L.lexeme text).kind = .unknown) :
    ∃ c rest, text = c :: rest ∧ L.lexeme text = ⟨.unknown, [c], [c], rest⟩ ∧
      ∀ r ∈ L.rules, L.lexeme? text r = none := by
  rcases lexeme_cases L text with ⟨r, -, hr⟩ | ⟨heq, hnone⟩
  · rw [kind_of_lexeme? hr] at h
    cases r <;> contradiction
  · cases text with
    | nil =>
      rw [heq] at h
      contradiction
    | cons c rest => exact ⟨c, rest, rfl, heq, hnone⟩

/-! ## Rules that depend on the lexicon -/

/-- The standard pattern for comments reads blanks, the mark and the rest of the line. -/
theorem comment?_eq (h : L.comment = .comment) (text : List Char) :
    L.comment? text =
      (Pattern.afterCommentMark? (text.dropWhile isBlank)).map
        (.comment (text.takeWhile isBlank)) := by
  rw [comment?, h, Pattern.comment, Pattern.leading?_anchored]
  cases hb : Pattern.afterCommentMark? (text.dropWhile isBlank) with
  | none => rfl
  | some body =>
    have htext : text.takeWhile isBlank ++ '/' :: '/' :: body = text := by
      rw [← Pattern.eq_of_afterCommentMark? hb, List.takeWhile_append_dropWhile]
    have hpos : ((Pattern.commentMatch (runLength isBlank text) body).whole.stop != 0) = true := by
      simp [Pattern.commentMatch]
    have hlex := Lexeme.ofLength_commentMatch (text.takeWhile isBlank) body
    rw [htext] at hlex
    simp only [Option.map_some, Option.filter_some, hpos, if_true]
    exact congrArg some hlex

theorem keyword?_cons_of_isWordChar {c : Char} (hc : isWordChar c = true) (rest : List Char) :
    L.keyword? (c :: rest) =
      if lowered ((c :: rest).takeWhile isWordChar) ∈ L.keywords then
        some ⟨.keyword, lowered ((c :: rest).takeWhile isWordChar),
          (c :: rest).takeWhile isWordChar, (c :: rest).dropWhile isWordChar⟩
      else none := by
  have hpos : 0 < runLength isWordChar (c :: rest) := runLength_pos_iff.2 hc
  have hne : runLength isWordChar (c :: rest) ≠ 0 := by omega
  simp only [keyword?, Lexeme.ofLength_runLength, take_runLength, hne, ne_eq, not_false_eq_true,
    true_and]

theorem keyword?_cons_of_not_isWordChar {c : Char} (hc : isWordChar c = false)
    (rest : List Char) : L.keyword? (c :: rest) = none := by
  have hzero : runLength isWordChar (c :: rest) = 0 := by simp [runLength, hc]
  simp [keyword?, hzero]

/-- Among symbols of one length at most one starts a text. -/
theorem find?_isPrefixOf {table : List (List Char)} {n : Nat} (h : ∀ s ∈ table, s.length = n)
    (text : List Char) :
    table.find? (·.isPrefixOf text) = if text.take n ∈ table then some (text.take n) else none := by
  induction table with
  | nil => rfl
  | cons s table ih =>
    have hs : s.length = n := h s (by simp)
    have htable := ih fun s' hs' => h s' (List.mem_cons_of_mem _ hs')
    have hpre : s.isPrefixOf text = true ↔ text.take n = s := by
      rw [List.isPrefixOf_iff_prefix, List.prefix_iff_eq_take, hs, eq_comm]
    by_cases heq : text.take n = s
    · simp [hpre.2 heq, heq]
    · have hfalse : s.isPrefixOf text = false := Bool.eq_false_iff.2 (mt hpre.1 heq)
      simp [hfalse, htable, heq]

theorem symbol?_cons_eq_none {c : Char} (h : ∀ s ∈ L.symbols, s.head? ≠ some c)
    (rest : List Char) : L.symbol? (c :: rest) = none := by
  rw [symbol?, Option.map_eq_none_iff, List.find?_eq_none]
  intro s hs hpre
  have hhead := h s hs
  cases s with
  | nil => exact L.symbols_ne_nil [] hs rfl
  | cons d s =>
    obtain ⟨hd, -⟩ := List.cons_prefix_cons.1 (List.isPrefixOf_iff_prefix.1 hpre)
    exact hhead (congrArg some hd)

end Lexicon

end Lexing
