import Lexing.Proofs.Standard
import Lexing.Tokenizer

/-!
The standard lexicon read by first characters. `Reading.ofText` says what a text starts with by one
look at its first character, with no rules tried one after the other: comments aside, the first
character decides of which kind the token may be. Keywords, symbols and classes of characters are
listed here once more, so that a reading depends on nothing that a lexicon is made of. It is the
answer of the standard lexicon (`reading_lexeme`).
-/

namespace Lexing

/-- What a token is, how its value reads and how many characters it covers. -/
structure Reading where
  kind : TokenKind
  value : List Char
  length : Nat
deriving DecidableEq, Repr

namespace Reading

open Lexicon

/-- A character that may stand before a comment. -/
def spaceOrTab (c : Char) : Bool :=
  c == ' ' || c == '\t'

/-- A character of which whitespace is made. -/
def spacing (c : Char) : Bool :=
  c == ' ' || c == '\t' || c == '\r'

/-- A character of a word after its first one. -/
def wordCharacter (c : Char) : Bool :=
  c.isAlpha || c.isDigit || c == '_'

/-- The index of the first quote in the text that is not escaped. -/
def openQuote? (text : List Char) : Option Nat :=
  (List.range text.length).find? fun i => text[i]? = some '"' && !isEscaped (text.take i)

/-- All digits at the start of the text, and a point with all digits after it when there are any. -/
def numeral (text : List Char) : List Char :=
  let digits := text.takeWhile Char.isDigit
  let fraction := (text.drop (digits.length + 1)).takeWhile Char.isDigit
  if text[digits.length]? = some '.' ∧ fraction ≠ [] then digits ++ '.' :: fraction else digits

/-- The comment after `blanks` blanks. -/
def comment (blanks : Nat) (body : List Char) : Reading :=
  let value := body.takeWhile (· ≠ '\n')
  ⟨.comment, value, blanks + 2 + value.length⟩

/-- The eight keywords. -/
def keywords : List String :=
  ["and", "else", "end", "goto", "if", "not", "or", "then"]

/-- The symbols of two characters. -/
def pairs : List String :=
  ["++", "--", ">=", "<=", "!=", "==", "+=", "-=", "*=", "/=", "%="]

/-- The symbols of one character. -/
def singles : List Char :=
  ['=', '>', '<', '+', '-', '*', '/', '^', '%', ',', '(', ')']

/-- The word that the text starts with. -/
def word (text : List Char) : Reading :=
  let value := lowered (text.takeWhile wordCharacter)
  ⟨if String.ofList value ∈ keywords then .keyword else .identifier, value, value.length⟩

/-- The symbol that the text starts with, or its first character when there is none. -/
def mark (c : Char) (text : List Char) : Reading :=
  if String.ofList (text.take 2) ∈ pairs then ⟨.symbol, text.take 2, 2⟩
  else if c ∈ singles then ⟨.symbol, [c], 1⟩
  else ⟨.unknown, [c], 1⟩

/-- What a text starts with. -/
def ofText : List Char → Reading
  | [] => ⟨.endOfInput, [], 0⟩
  | c :: rest =>
    let text := c :: rest
    let blanks := text.takeWhile spaceOrTab
    if ['/', '/'] <+: text.dropWhile spaceOrTab then
      comment blanks.length ((text.dropWhile spaceOrTab).drop 2)
    else if c = ' ' ∨ c = '\t' ∨ c = '\r' then
      ⟨.whitespace, text.takeWhile spacing, (text.takeWhile spacing).length⟩
    else if c = '\n' then ⟨.newline, [], 1⟩
    else if c.isAlpha then word text
    else if c = ':' ∧ rest.head?.any Char.isAlpha then
      ⟨.identifier, ':' :: lowered (rest.takeWhile wordCharacter),
        (rest.takeWhile wordCharacter).length + 1⟩
    else if c.isDigit then ⟨.number, numeral text, (numeral text).length⟩
    else match (if c = '"' then openQuote? rest else none) with
      | some i => ⟨.string, rest.take i, i + 2⟩
      | none => mark c text

end Reading

/-- The reading of a lexeme. -/
def Lexeme.reading (l : Lexeme) : Reading :=
  ⟨l.kind, l.value, l.span.length⟩

namespace Reading

open Lexicon

/-! ## The tables -/

theorem spaceOrTab_eq : spaceOrTab = isBlank := rfl

theorem spacing_eq : spacing = isLayout := rfl

theorem wordCharacter_eq : wordCharacter = isWordChar := rfl

theorem mem_map_toList_iff {table : List String} {w : List Char} :
    w ∈ table.map String.toList ↔ String.ofList w ∈ table := by
  rw [List.mem_map]
  constructor
  · rintro ⟨s, hs, rfl⟩
    rwa [String.ofList_toList]
  · intro h
    exact ⟨_, h, String.toList_ofList⟩

/-- The keywords are those of the standard lexicon. -/
theorem mem_keywords_iff {w : List Char} :
    String.ofList w ∈ keywords ↔ w ∈ standard.keywords := by
  have htable : standard.keywords = keywords.map String.toList := by decide
  rw [htable, mem_map_toList_iff]

/-- The symbols of two characters are those of the standard lexicon. -/
theorem mem_pairs_iff {w : List Char} : String.ofList w ∈ pairs ↔ w ∈ longSymbols := by
  have htable : longSymbols = pairs.map String.toList := by decide
  rw [htable, mem_map_toList_iff]

/-- The symbols of one character are those of the standard lexicon. -/
theorem mem_singles_iff {c : Char} : c ∈ singles ↔ [c] ∈ shortSymbols := by
  have htable : shortSymbols = singles.map fun c => [c] := by decide
  simp [htable]

/-! ## The pieces -/

theorem openQuote?_eq (text : List Char) : openQuote? text = closingQuote? false text := by
  ext i
  rw [closingQuote?_eq_some_iff, openQuote?, List.find?_range_eq_some]
  simp only [← escapedAfter_false]
  constructor
  · rintro ⟨hi, -, hfirst⟩
    obtain ⟨hquote, hesc⟩ : text[i]? = some '"' ∧ escapedAfter false (text.take i) = false := by
      simpa using hi
    obtain ⟨hlt, hget⟩ := List.getElem?_eq_some_iff.1 hquote
    refine ⟨text.take i, text.drop (i + 1), ?_, ?_, hesc, ?_⟩
    · rw [← hget, List.getElem_cons_drop, List.take_append_drop]
    · rw [List.length_take]
      omega
    · intro q r hq
      have hqi : q.length < i := by
        have := congrArg List.length hq
        simp only [List.length_append, List.length_cons, List.length_take] at this
        omega
      have htext : text = q ++ '"' :: (r ++ text.drop i) := by
        rw [← List.cons_append, ← List.append_assoc, ← hq, List.take_append_drop]
      have := hfirst q.length hqi
      rw [htext] at this
      simpa using this
  · rintro ⟨q, r, rfl, rfl, hesc, hquotes⟩
    refine ⟨by simp [hesc], by simp, ?_⟩
    intro j hj
    by_cases hquote : q[j]? = some '"'
    · obtain ⟨hlt, hget⟩ := List.getElem?_eq_some_iff.1 hquote
      have htrue := hquotes (q.take j) (q.drop (j + 1)) (by
        rw [← hget, List.getElem_cons_drop, List.take_append_drop])
      simp [List.take_append_of_le_length (Nat.le_of_lt hj), htrue]
    · simp [List.getElem?_append_left hj, hquote]

theorem take_fractionLength (digits tail : List Char) :
    (digits ++ tail).take (digits.length + Pattern.fractionLength tail) =
      if (digits ++ tail)[digits.length]? = some '.' ∧
          ((digits ++ tail).drop (digits.length + 1)).takeWhile Char.isDigit ≠ [] then
        digits ++ '.' :: ((digits ++ tail).drop (digits.length + 1)).takeWhile Char.isDigit
      else digits := by
  cases tail with
  | nil => simp [Pattern.fractionLength]
  | cons c more =>
    have hget : (digits ++ c :: more)[digits.length]? = some c := by simp
    have hdrop : (digits ++ c :: more).drop (digits.length + 1) = more := by
      simp [List.drop_append]
    have hrun : runLength Char.isDigit more ≠ 0 ↔ more.takeWhile Char.isDigit ≠ [] := by
      rw [runLength, ne_eq, List.length_eq_zero_iff]
    rw [hget, hdrop, List.take_length_add_append, Pattern.fractionLength]
    by_cases hc : c = '.' ∧ runLength Char.isDigit more ≠ 0
    · rw [if_pos hc, if_pos ⟨congrArg some hc.1, hrun.1 hc.2⟩, List.take_succ_cons, take_runLength,
        hc.1]
    · rw [if_neg hc, if_neg]
      · simp
      · rintro ⟨hdot, hmore⟩
        exact hc ⟨Option.some.inj hdot, hrun.2 hmore⟩

/-- The standard numbers: digits, and a fraction when their point is followed by a digit. -/
theorem take_numberLength {c : Char} (h : c.isDigit = true) (rest : List Char) :
    0 < Pattern.numberLength (c :: rest) ∧
      (c :: rest).take (Pattern.numberLength (c :: rest)) = numeral (c :: rest) := by
  have hpos : 0 < runLength Char.isDigit (c :: rest) := runLength_pos_iff.2 h
  rw [Pattern.numberLength, if_neg (by omega)]
  refine ⟨by omega, ?_⟩
  have htake := take_fractionLength ((c :: rest).takeWhile Char.isDigit)
    ((c :: rest).dropWhile Char.isDigit)
  rw [List.takeWhile_append_dropWhile] at htake
  rw [drop_runLength]
  exact htake

theorem reading_comment (blanks body : List Char) :
    (Lexeme.comment blanks body).reading = comment blanks.length body := by
  simp only [Lexeme.reading, Lexeme.comment, comment, firstLine, List.length_append,
    List.length_cons]
  congr 1
  omega

end Reading

/-! ## The kinds -/

namespace Lexicon.Plain

open Lexicon Reading

variable {c : Char} {rest : List Char}

theorem reading_word (h : Plain c rest) (hc : c.isAlpha = true) :
    (standard.lexeme (c :: rest)).reading = word (c :: rest) := by
  have hword : isWordChar c = true := isWordChar_of_isAlpha hc
  have hpos : 0 < runLength isWordChar (c :: rest) := runLength_pos_iff.2 hword
  have hidentifier := identifier?_standard (c :: rest)
  rw [Pattern.identifierLength_of_isAlpha hc, if_neg (by omega), Lexeme.ofLength_runLength]
    at hidentifier
  rw [h.lexeme_eq, keyword?_cons_of_isWordChar hword, symbol?_standard_eq_none (.inl hc),
    hidentifier, word, wordCharacter_eq]
  by_cases hk : lowered ((c :: rest).takeWhile isWordChar) ∈ standard.keywords
  · rw [if_pos hk, if_pos (mem_keywords_iff.2 hk)]
    simp [Lexeme.reading]
  · rw [if_neg hk, if_neg (mt mem_keywords_iff.1 hk)]
    simp [Lexeme.reading]

theorem reading_colon (h : Plain ':' rest) (hrest : rest.head?.any Char.isAlpha = true) :
    (standard.lexeme (':' :: rest)).reading =
      ⟨.identifier, ':' :: lowered (rest.takeWhile isWordChar),
        (rest.takeWhile isWordChar).length + 1⟩ := by
  have hidentifier := identifier?_standard (':' :: rest)
  rw [Pattern.identifierLength_colon hrest, if_neg (by omega), Lexeme.ofLength,
    List.take_succ_cons, take_runLength] at hidentifier
  rw [h.lexeme_eq, keyword?_standard_eq_none rfl,
    symbol?_standard_eq_none (.inr (.inr (.inl rfl))), hidentifier]
  rfl

theorem reading_numeral (h : Plain c rest) (hc : c.isDigit = true) (halpha : c.isAlpha = false)
    (hcolon : ¬(c = ':' ∧ rest.head?.any Char.isAlpha = true)) :
    (standard.lexeme (c :: rest)).reading =
      ⟨.number, numeral (c :: rest), (numeral (c :: rest)).length⟩ := by
  have hquote : Lexeme.string? (c :: rest) = none := by
    rw [Lexeme.string?, if_neg]
    intro hc'
    subst hc'
    contradiction
  obtain ⟨hpos, htake⟩ := take_numberLength hc rest
  have hnumber := number?_standard (c :: rest)
  rw [if_neg (by omega), Lexeme.ofLength, htake] at hnumber
  rw [h.lexeme_eq, keyword?_standard_eq_none halpha, symbol?_standard_eq_none (.inr (.inl hc)),
    identifier?_standard_eq_none halpha hcolon, hquote, hnumber]
  rfl

theorem reading_literal {i : Nat} (h : Plain '"' rest) (hi : openQuote? rest = some i) :
    (standard.lexeme ('"' :: rest)).reading = ⟨.string, rest.take i, i + 2⟩ := by
  rw [openQuote?_eq] at hi
  have hstring : Lexeme.string? ('"' :: rest) =
      some ⟨.string, rest.take i, ('"' :: rest).take (i + 2), rest.drop (i + 1)⟩ := by
    rw [Lexeme.string?, if_pos rfl, hi, Option.map_some]
  have hlen : (('"' :: rest).take (i + 2)).length = i + 2 := by
    obtain ⟨q, r, rfl, rfl, -⟩ := closingQuote?_eq_some_iff.1 hi
    simp
  rw [h.lexeme_eq, keyword?_standard_eq_none rfl,
    symbol?_standard_eq_none (.inr (.inr (.inr rfl))),
    identifier?_standard_eq_none rfl (by simp), hstring]
  simp only [List.findSome?_cons, id_eq, Option.getD_some, Lexeme.reading, hlen]

theorem reading_mark (h : Plain c rest) (halpha : c.isAlpha = false)
    (hcolon : ¬(c = ':' ∧ rest.head?.any Char.isAlpha = true)) (hdigit : c.isDigit = false)
    (hquote : (if c = '"' then openQuote? rest else none) = none) :
    (standard.lexeme (c :: rest)).reading = mark c (c :: rest) := by
  have hstring : Lexeme.string? (c :: rest) = none := by
    rw [Lexeme.string?]
    by_cases hc : c = '"'
    · rw [if_pos hc, openQuote?_eq] at hquote
      rw [if_pos hc, hquote, Option.map_none]
    · rw [if_neg hc]
  rw [h.lexeme_eq, keyword?_standard_eq_none halpha, symbol?_standard,
    identifier?_standard_eq_none halpha hcolon, hstring, number?_standard_eq_none hdigit, mark]
  by_cases h2 : (c :: rest).take 2 ∈ longSymbols
  · rw [if_pos h2, if_pos (mem_pairs_iff.2 h2)]
    have hlen : ((c :: rest).take 2).length = 2 := length_of_mem_longSymbols _ h2
    simp only [List.findSome?_cons, id_eq, Option.getD_some, Lexeme.ofLength, Lexeme.reading, hlen]
  · rw [if_neg h2, if_neg (mt mem_pairs_iff.1 h2), List.take_succ_cons, List.take_zero]
    by_cases h1 : [c] ∈ shortSymbols
    · rw [if_pos h1, if_pos (mem_singles_iff.2 h1)]
      rfl
    · rw [if_neg h1, if_neg (mt mem_singles_iff.1 h1)]
      rfl

end Lexicon.Plain

namespace Reading

open Lexicon

/-- A text starts with what its first character says. -/
theorem reading_lexeme (text : List Char) :
    (standard.lexeme text).reading = ofText text := by
  cases text with
  | nil => rfl
  | cons c rest =>
    rw [ofText, spaceOrTab_eq, spacing_eq, wordCharacter_eq]
    by_cases hcomment : ['/', '/'] <+: (c :: rest).dropWhile isBlank
    · rw [if_pos hcomment, lexeme_standard, comment?_standard, if_pos hcomment]
      exact reading_comment _ _
    rw [if_neg hcomment]
    have hplain : standard.comment? (c :: rest) = none := by
      rw [comment?_standard, if_neg hcomment]
    by_cases hlayout : c = ' ' ∨ c = '\t' ∨ c = '\r'
    · rw [if_pos hlayout, lexeme_standard, hplain, Lexeme.whitespace?_cons,
        if_pos (isLayout_iff.2 hlayout)]
      rfl
    rw [if_neg hlayout]
    have hwhite : Lexeme.whitespace? (c :: rest) = none := by
      rw [Lexeme.whitespace?_cons, if_neg (mt isLayout_iff.1 hlayout)]
    have hword : c = '\n' → standard.keyword? (c :: rest) = none := by
      rintro rfl
      exact keyword?_standard_eq_none rfl rest
    by_cases hbreak : c = '\n'
    · rw [if_pos hbreak, lexeme_standard, hplain, hwhite, hword hbreak, Lexeme.newline?,
        if_pos hbreak]
      rfl
    rw [if_neg hbreak]
    have h : Plain c rest := ⟨hplain, hwhite, by rw [Lexeme.newline?, if_neg hbreak]⟩
    by_cases halpha : c.isAlpha = true
    · rw [if_pos halpha]
      exact h.reading_word halpha
    rw [if_neg halpha]
    have halpha : c.isAlpha = false := by simpa using halpha
    by_cases hcolon : c = ':' ∧ rest.head?.any Char.isAlpha = true
    · rw [if_pos hcolon]
      obtain ⟨rfl, hrest⟩ := hcolon
      exact h.reading_colon hrest
    rw [if_neg hcolon]
    by_cases hdigit : c.isDigit = true
    · rw [if_pos hdigit]
      exact h.reading_numeral hdigit halpha hcolon
    rw [if_neg hdigit]
    have hdigit : c.isDigit = false := by simpa using hdigit
    cases hquote : (if c = '"' then openQuote? rest else none) with
    | none => exact h.reading_mark halpha hcolon hdigit hquote
    | some i =>
      by_cases hc : c = '"'
      · subst hc
        exact h.reading_literal (by simpa using hquote)
      · rw [if_neg hc] at hquote
        contradiction

end Reading

/-- The next token of a tokenizer with the standard lexicon is the reading of the text at the
cursor, and as many characters are consumed as the reading covers. -/
theorem nextToken_eq_reading (t : Tokenizer) (h : t.lexicon = .standard) :
    let r := Reading.ofText t.rest
    t.nextToken.1.kind = r.kind ∧ t.nextToken.1.value = String.ofList r.value ∧
      r.length ≤ t.rest.length ∧ t.nextToken.2.rest = t.rest.drop r.length := by
  have hreading := Reading.reading_lexeme t.rest
  have happend := Lexicon.standard.span_append_rest t.rest
  have hlen := congrArg List.length happend
  rw [List.length_append] at hlen
  rw [← hreading]
  refine ⟨?_, ?_, ?_, ?_⟩
  · simp [Tokenizer.nextToken, Lexeme.reading, h]
  · simp [Tokenizer.nextToken, Lexeme.reading, h]
  · simp only [Lexeme.reading]
    omega
  · have hdrop : t.rest.drop (Lexicon.standard.lexeme t.rest).span.length =
        (Lexicon.standard.lexeme t.rest).rest := by
      conv => lhs; arg 2; rw [← happend]
      rw [List.drop_left]
    simp [Tokenizer.nextToken, Lexeme.reading, h, hdrop]

/-- Texts that start with a token of each kind, and some that start with less than it seems: a word
that begins like a keyword, a symbol with another one behind it, a mark that is no symbol. -/
theorem nextToken_eq_reading_of_texts :
    let read (text : String) : TokenKind × String × List Char :=
      let (token, t) := Tokenizer.nextToken { rest := text.toList, position := ⟨3, 4⟩ }
      (token.kind, token.value, t.rest)
    read " \t//A b\nx" = (.comment, "A b", "\nx".toList) ∧
      read " \t\r/" = (.whitespace, " \t\r", ['/']) ∧
      read "\n\n" = (.newline, "", ['\n']) ∧
      read "IF(" = (.keyword, "if", ['(']) ∧
      read "Iffy_2:" = (.identifier, "iffy_2", [':']) ∧
      read ":If-" = (.identifier, ":if", ['-']) ∧
      read "12.50.x" = (.number, "12.50", ".x".toList) ∧
      read "\"A\\\"b\"c" = (.string, "A\\\"b", ['c']) ∧
      read "<== 1" = (.symbol, "<=", "= 1".toList) ∧
      read "<1" = (.symbol, "<", ['1']) ∧
      read "!1" = (.unknown, "!", ['1']) ∧
      read "" = (.endOfInput, "", []) := by
  intro read
  have hread (text : String) :
      let r := Reading.ofText text.toList
      read text = (r.kind, String.ofList r.value, text.toList.drop r.length) := by
    obtain ⟨hkind, hvalue, -, hrest⟩ :=
      nextToken_eq_reading { rest := text.toList, position := ⟨3, 4⟩ } rfl
    exact Prod.ext hkind (Prod.ext hvalue hrest)
  refine ⟨?_, ?_, ?_, ?_, ?_, ?_, ?_, ?_, ?_, ?_, ?_, ?_⟩ <;> exact (hread _).trans (by decide)

end Lexing
