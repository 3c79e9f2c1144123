import Lexing.Proofs.Rules

/-!
The rules of the standard lexicon, each by the characters that the text starts with. A rule is left
out early: whatever the first character is, most of the rules accept nothing.
-/

namespace Lexing

/-! ## Characters -/

theorem isLayout_iff {c : Char} : isLayout c = true ↔ c = ' ' ∨ c = '\t' ∨ c = '\r' := by
  simp [isLayout, isBlank, or_assoc]

theorem isBlank_eq_false {c : Char} (h : isLayout c = false) : isBlank c = false :=
  (Bool.or_eq_false_iff.1 h).1

theorem toLower_of_not_isUpper {c : Char} (h : c.isUpper = false) : c.toLower = c := by
  have hrange : ¬(c.val ≥ 'A'.val ∧ c.val ≤ 'Z'.val) := of_decide_eq_false h
  exact dif_neg hrange

theorem toLower_eq_self {c : Char} (h : c.isAlpha = false) : c.toLower = c :=
  toLower_of_not_isUpper (Bool.or_eq_false_iff.1 h).1

theorem isAlpha_eq_false_of_isDigit {c : Char} (h : c.isDigit = true) : c.isAlpha = false := by
  have hnine : c.val ≤ '9'.val := of_decide_eq_true (Bool.and_eq_true_iff.1 h).2
  have hupper : ¬(c.val ≥ 'A'.val ∧ c.val ≤ 'Z'.val) := fun hc =>
    absurd (UInt32.le_trans hc.1 hnine) (by decide)
  have hlower : ¬c.val ≥ 'a'.val := fun hc =>
    absurd (UInt32.le_trans hc hnine) (by decide)
  exact Bool.or_eq_false_iff.2
    ⟨decide_eq_false hupper, Bool.and_eq_false_iff.2 (.inl (decide_eq_false hlower))⟩

namespace Pattern

/-! ## Lengths -/

theorem afterCommentMark?_eq (text : List Char) :
    afterCommentMark? text = if ['/', '/'] <+: text then some (text.drop 2) else none := by
  by_cases h : ['/', '/'] <+: text
  · obtain ⟨body, rfl⟩ := h
    simp [afterCommentMark?]
  · rw [if_neg h]
    cases hm : afterCommentMark? text with
    | none => rfl
    | some body => exact absurd ⟨body, (eq_of_afterCommentMark? hm).symm⟩ h

theorem nameLength_eq_zero_iff {text : List Char} :
    nameLength text = 0 ↔ text.head?.any Char.isAlpha = false := by
  cases text with
  | nil => simp [nameLength]
  | cons c rest =>
    rw [nameLength]
    by_cases hc : c.isAlpha = true
    · have hpos : 0 < runLength isWordChar (c :: rest) :=
        runLength_pos_iff.2 (isWordChar_of_isAlpha hc)
      have hne : runLength isWordChar (c :: rest) ≠ 0 := by omega
      simp [hc, hne]
    · simp [hc]

theorem identifierLength_of_isAlpha {c : Char} (h : c.isAlpha = true) (rest : List Char) :
    identifierLength (c :: rest) = runLength isWordChar (c :: rest) := by
  have hcolon : c ≠ ':' := by
    rintro rfl
    contradiction
  rw [identifierLength, if_neg hcolon, nameLength, if_pos h]

theorem identifierLength_colon {rest : List Char} (h : rest.head?.any Char.isAlpha = true) :
    identifierLength (':' :: rest) = runLength isWordChar rest + 1 := by
  have hname : nameLength rest ≠ 0 := by
    rw [ne_eq, nameLength_eq_zero_iff, h]
    decide
  have hlen : nameLength rest = runLength isWordChar rest := by
    cases rest with
    | nil => contradiction
    | cons d more => rw [nameLength, if_pos (by simpa using h)]
  rw [identifierLength, if_pos rfl, if_neg hname, hlen]

theorem identifierLength_eq_zero {c : Char} {rest : List Char} (hc : c.isAlpha = false)
    (hcolon : ¬(c = ':' ∧ rest.head?.any Char.isAlpha = true)) :
    identifierLength (c :: rest) = 0 := by
  rw [identifierLength]
  by_cases h : c = ':'
  · have hname : nameLength rest = 0 := by
      rw [nameLength_eq_zero_iff]
      simpa [h] using hcolon
    rw [if_pos h, if_pos hname]
  · rw [if_neg h, nameLength, if_neg (by simp [hc])]

end Pattern

namespace Lexicon

variable {c : Char} {rest : List Char}

/-! ## The rules -/

/-- The symbols of two characters. -/
def longSymbols : List (List Char) :=
  (standardSymbols.map String.toList).filter (·.length = 2)

/-- The symbols of one character. -/
def shortSymbols : List (List Char) :=
  (standardSymbols.map String.toList).filter (·.length = 1)

theorem length_of_mem_longSymbols : ∀ s ∈ longSymbols, s.length = 2 := by decide

theorem length_of_mem_shortSymbols : ∀ s ∈ shortSymbols, s.length = 1 := by decide

theorem comment?_standard (text : List Char) :
    standard.comment? text =
      if ['/', '/'] <+: text.dropWhile isBlank then
        some (.comment (text.takeWhile isBlank) ((text.dropWhile isBlank).drop 2))
      else none := by
  rw [comment?_eq rfl, Pattern.afterCommentMark?_eq]
  split <;> rfl

/-- The symbols of two characters are tried first. -/
theorem symbol?_standard (text : List Char) :
    standard.symbol? text =
      if text.take 2 ∈ longSymbols then some (.ofLength .symbol id text 2)
      else if text.take 1 ∈ shortSymbols then some (.ofLength .symbol id text 1)
      else none := by
  have hsplit : standard.symbols = longSymbols ++ shortSymbols := by decide
  rw [symbol?, hsplit, List.find?_append, find?_isPrefixOf length_of_mem_longSymbols,
    find?_isPrefixOf length_of_mem_shortSymbols]
  by_cases h2 : text.take 2 ∈ longSymbols
  · simp [h2, length_of_mem_longSymbols _ h2]
  · by_cases h1 : text.take 1 ∈ shortSymbols
    · simp [h2, h1, length_of_mem_shortSymbols _ h1]
    · simp [h2, h1]

/-- No symbol starts like a word, a number, a name after a colon or a literal. -/
theorem symbol?_standard_eq_none
    (h : c.isAlpha = true ∨ c.isDigit = true ∨ c = ':' ∨ c = '"') (rest : List Char) :
    standard.symbol? (c :: rest) = none := by
  have hheads : ∀ s ∈ standard.symbols, s.head?.all
      (fun d => !d.isAlpha && !d.isDigit && d != ':' && d != '"') = true := by decide
  apply symbol?_cons_eq_none
  intro s hs hd
  have hc := hheads s hs
  rw [hd] at hc
  rcases h with h | h | h | h <;> simp [h] at hc

/-- Every keyword starts with a letter. -/
theorem keyword?_standard_eq_none (h : c.isAlpha = false) (rest : List Char) :
    standard.keyword? (c :: rest) = none := by
  have hheads : ∀ s ∈ standard.keywords, s.head?.all Char.isAlpha = true := by decide
  cases hc : isWordChar c with
  | false => exact keyword?_cons_of_not_isWordChar hc rest
  | true =>
    rw [keyword?_cons_of_isWordChar hc, if_neg]
    intro hmem
    have hfirst := hheads _ hmem
    simp [lowered, hc, toLower_eq_self h, h] at hfirst

theorem identifier?_standard (text : List Char) :
    standard.identifier? text =
      if Pattern.identifierLength text = 0 then none
      else some (.ofLength .identifier lowered text (Pattern.identifierLength text)) :=
  Lexeme.matching?_ofLength _ Pattern.identifierLength_le _ _ _

theorem identifier?_standard_eq_none (hc : c.isAlpha = false)
    (hcolon : ¬(c = ':' ∧ rest.head?.any Char.isAlpha = true)) :
    standard.identifier? (c :: rest) = none := by
  rw [identifier?_standard, if_pos (Pattern.identifierLength_eq_zero hc hcolon)]

theorem number?_standard (text : List Char) :
    standard.number? text =
      if Pattern.numberLength text = 0 then none
      else some (.ofLength .number id text (Pattern.numberLength text)) :=
  Lexeme.matching?_ofLength _ Pattern.numberLength_le _ _ _

theorem number?_standard_eq_none (hc : c.isDigit = false) (rest : List Char) :
    standard.number? (c :: rest) = none := by
  have hzero : runLength Char.isDigit (c :: rest) = 0 := by simp [runLength, hc]
  rw [number?_standard, Pattern.numberLength, if_pos hzero, if_pos rfl]

/-! ## Their order -/

theorem lexeme_standard (text : List Char) :
    standard.lexeme text =
      ([standard.comment? text, Lexeme.endOfInput? text, Lexeme.whitespace? text,
        standard.keyword? text, Lexeme.newline? text, standard.symbol? text,
        standard.identifier? text, Lexeme.string? text, standard.number? text].findSome? id).getD
          (.unrecognised text) := rfl

/-- The text starts with no comment, no layout and no line break. -/
structure Plain (c : Char) (rest : List Char) : Prop where
  comment : standard.comment? (c :: rest) = none
  whitespace : Lexeme.whitespace? (c :: rest) = none
  newline : Lexeme.newline? (c :: rest) = none

theorem Plain.lexeme_eq (h : Plain c rest) :
    standard.lexeme (c :: rest) =
      ([standard.keyword? (c :: rest), standard.symbol? (c :: rest),
        standard.identifier? (c :: rest), Lexeme.string? (c :: rest),
        standard.number? (c :: rest)].findSome? id).getD ⟨.unknown, [c], [c], rest⟩ := by
  have hend : Lexeme.endOfInput? (c :: rest) = none := rfl
  rw [lexeme_standard, h.comment, hend, h.whitespace, h.newline]
  simp [List.findSome?_cons, Lexeme.unrecognised]

end Lexicon

end Lexing
