import Lexing.Proofs.FirstCharacter
import Mathlib.Data.List.TakeWhile

/-!
The grammar of the standard lexicon. `Lexeme.Standard` has a rule for each form of a token: which
characters make it up, what its kind and value are, and what must not follow it. The last matters
because a token goes on for as long as it can. All that a rule asks of the text behind a token
depends on two characters at most, save for one rule: a quote is a token of its own when no closing
quote follows anywhere.

The standard lexicon cuts every text as the grammar says, and the grammar leaves no other way to cut
it (`standard_iff`).
-/

namespace Lexing

/-- The text does not go on with a character that satisfies `p`. -/
def Stops (p : Char → Bool) (rest : List Char) : Prop :=
  rest.head?.any p = false

section Stops

variable {p q : Char → Bool} {w rest : List Char}

theorem stops_nil (p : Char → Bool) : Stops p [] := rfl

theorem stops_cons_iff {c : Char} : Stops p (c :: rest) ↔ p c = false := by
  simp [Stops]

theorem stops_dropWhile (p : Char → Bool) (text : List Char) : Stops p (text.dropWhile p) := by
  have h := List.head?_dropWhile_not p text
  cases hd : text.dropWhile p with
  | nil => exact stops_nil p
  | cons c rest =>
    rw [hd] at h
    exact stops_cons_iff.2 h

/-- Where a run stops, a run of fewer characters stops as well. -/
theorem Stops.mono (h : Stops p rest) (hpq : ∀ c, q c = true → p c = true) : Stops q rest := by
  cases rest with
  | nil => exact stops_nil q
  | cons c rest =>
    rw [stops_cons_iff] at h ⊢
    exact Bool.eq_false_iff.2 fun hq => Bool.eq_false_iff.1 h (hpq c hq)

theorem Stops.takeWhile_append (h : Stops p rest) (hw : ∀ c ∈ w, p c = true) :
    (w ++ rest).takeWhile p = w := by
  rw [List.takeWhile_append_of_pos hw]
  cases rest with
  | nil => simp
  | cons c rest => simp [stops_cons_iff.1 h]

theorem Stops.dropWhile_append (h : Stops p rest) (hw : ∀ c ∈ w, p c = true) :
    (w ++ rest).dropWhile p = rest := by
  rw [List.dropWhile_append_of_pos hw]
  cases rest with
  | nil => rfl
  | cons c rest => simp [stops_cons_iff.1 h]

end Stops

/-- A character that starts neither layout nor a new line, and neither a word nor a number. -/
def isMark (c : Char) : Bool :=
  !(isLayout c || c == '\n' || c.isAlpha || c.isDigit)

theorem isMark_iff {c : Char} :
    isMark c = true ↔
      isLayout c = false ∧ c ≠ '\n' ∧ c.isAlpha = false ∧ c.isDigit = false := by
  simp [isMark, and_assoc]

/-- A token of the standard lexicon as it lies in a text. -/
inductive Lexeme.Standard : Lexeme → Prop
  | comment {blanks body rest} (blank : ∀ c ∈ blanks, isBlank c = true)
      (line : '\n' ∉ body) (stops : Stops (· ≠ '\n') rest) :
      Standard ⟨.comment, body, blanks ++ '/' :: '/' :: body, rest⟩
  /-- Blanks directly before a comment belong to the comment. -/
  | whitespace {c w rest} (layout : ∀ d ∈ c :: w, isLayout d = true) (stops : Stops isLayout rest)
      (noMark : (∀ d ∈ c :: w, isBlank d = true) → ¬['/', '/'] <+: rest) :
      Standard ⟨.whitespace, c :: w, c :: w, rest⟩
  | newline {rest} : Standard ⟨.newline, [], ['\n'], rest⟩
  | keyword {c w rest} (alpha : c.isAlpha = true) (word : ∀ d ∈ w, isWordChar d = true)
      (stops : Stops isWordChar rest) (mem : lowered (c :: w) ∈ Lexicon.standard.keywords) :
      Standard ⟨.keyword, lowered (c :: w), c :: w, rest⟩
  | name {c w rest} (alpha : c.isAlpha = true) (word : ∀ d ∈ w, isWordChar d = true)
      (stops : Stops isWordChar rest) (notMem : lowered (c :: w) ∉ Lexicon.standard.keywords) :
      Standard ⟨.identifier, lowered (c :: w), c :: w, rest⟩
  | label {c w rest} (alpha : c.isAlpha = true) (word : ∀ d ∈ w, isWordChar d = true)
      (stops : Stops isWordChar rest) :
      Standard ⟨.identifier, lowered (':' :: c :: w), ':' :: c :: w, rest⟩
  | integer {c w rest} (digits : ∀ d ∈ c :: w, d.isDigit = true) (stops : Stops Char.isDigit rest)
      (noFraction : ∀ d, ['.', d] <+: rest → d.isDigit = false) :
      Standard ⟨.number, c :: w, c :: w, rest⟩
  | fraction {c w d v rest} (digits : ∀ e ∈ c :: w, e.isDigit = true)
      (decimals : ∀ e ∈ d :: v, e.isDigit = true) (stops : Stops Char.isDigit rest) :
      Standard ⟨.number, c :: w ++ '.' :: d :: v, c :: w ++ '.' :: d :: v, rest⟩
  | string {q rest} (closed : escapedAfter false q = false) (quotes : QuotesEscaped false q) :
      Standard ⟨.string, q, '"' :: q ++ ['"'], rest⟩
  | pair {c d rest} (mem : [c, d] ∈ Lexicon.longSymbols) :
      Standard ⟨.symbol, [c, d], [c, d], rest⟩
  /-- A symbol of one character is neither half of a longer symbol nor of a comment mark. -/
  | single {c rest} (mem : [c] ∈ Lexicon.shortSymbols)
      (noPair : Stops (fun d => (['/', '/'] :: Lexicon.longSymbols).contains [c, d]) rest) :
      Standard ⟨.symbol, [c], [c], rest⟩
  | unknown {c rest} (mark : isMark c = true) (foreign : [c] ∉ Lexicon.shortSymbols)
      (noPair : Stops (fun d => Lexicon.longSymbols.contains [c, d]) rest)
      (noLabel : c = ':' → Stops Char.isAlpha rest)
      (noLiteral : c = '"' → QuotesEscaped false rest) : Standard ⟨.unknown, [c], [c], rest⟩

theorem forall_mem_word {c : Char} {w : List Char} (alpha : c.isAlpha = true)
    (word : ∀ d ∈ w, isWordChar d = true) : ∀ d ∈ c :: w, isWordChar d = true :=
  List.forall_mem_cons.2 ⟨isWordChar_of_isAlpha alpha, word⟩

/-! ## A token is read as the grammar says -/

namespace Reading

open Lexicon

variable {c : Char} {rest : List Char}

theorem mark_prefix_iff (hc : isBlank c = false) :
    ['/', '/'] <+: (c :: rest).dropWhile isBlank ↔ c = '/' ∧ rest.head? = some '/' := by
  rw [List.dropWhile_cons_of_neg (by simp [hc]), List.cons_prefix_cons, eq_comm]
  cases rest <;> simp [List.cons_prefix_cons, eq_comm]

theorem mark_prefix_append_iff {w : List Char} (layout : ∀ d ∈ w, isLayout d = true)
    (stops : Stops isLayout rest) :
    ['/', '/'] <+: (w ++ rest).dropWhile isBlank ↔
      (∀ d ∈ w, isBlank d = true) ∧ ['/', '/'] <+: rest := by
  induction w with
  | nil =>
    have hstop : Stops isBlank rest := stops.mono fun _ => isLayout_of_isBlank
    rw [hstop.dropWhile_append (by simp)]
    simp
  | cons d w ih =>
    obtain ⟨hd, hw⟩ := List.forall_mem_cons.1 layout
    rw [List.cons_append]
    by_cases hb : isBlank d = true
    · rw [List.dropWhile_cons_of_pos hb, ih hw, List.forall_mem_cons, and_assoc, and_iff_right hb]
    · -- A carriage return stands between the blanks before it and a mark behind it.
      rw [mark_prefix_iff (Bool.eq_false_iff.2 hb)]
      refine iff_of_false ?_ fun h => hb (h.1 d (by simp))
      rintro ⟨rfl, -⟩
      contradiction

theorem ofText_comment {blanks body : List Char} (blank : ∀ c ∈ blanks, isBlank c = true) :
    ofText (blanks ++ '/' :: '/' :: body) = comment blanks.length body := by
  have hstop : Stops isBlank ('/' :: '/' :: body) := stops_cons_iff.2 rfl
  have htake := hstop.takeWhile_append blank
  have hdrop := hstop.dropWhile_append blank
  cases htext : blanks ++ '/' :: '/' :: body with
  | nil => simp at htext
  | cons c rest =>
    rw [htext] at htake hdrop
    rw [ofText, spaceOrTab_eq, htake, hdrop, if_pos ⟨body, rfl⟩]
    rfl

theorem ofText_whitespace (hc : isLayout c = true)
    (hmark : ¬['/', '/'] <+: (c :: rest).dropWhile isBlank) :
    ofText (c :: rest) =
      ⟨.whitespace, (c :: rest).takeWhile isLayout, ((c :: rest).takeWhile isLayout).length⟩ := by
  rw [ofText, spaceOrTab_eq, if_neg hmark, if_pos (isLayout_iff.1 hc), spacing_eq]

/-- The choices that are left when the text starts with no comment, no layout and no line break. -/
theorem ofText_of_not_isLayout (hc : isLayout c = false) (hn : c ≠ '\n')
    (hmark : ¬(c = '/' ∧ rest.head? = some '/')) :
    ofText (c :: rest) =
      if c.isAlpha then word (c :: rest)
      else if c = ':' ∧ rest.head?.any Char.isAlpha then
        ⟨.identifier, ':' :: lowered (rest.takeWhile isWordChar),
          (rest.takeWhile isWordChar).length + 1⟩
      else if c.isDigit then ⟨.number, numeral (c :: rest), (numeral (c :: rest)).length⟩
      else match (if c = '"' then openQuote? rest else none) with
        | some i => ⟨.string, rest.take i, i + 2⟩
        | none => mark c (c :: rest) := by
  have hcomment := mt (mark_prefix_iff (isBlank_eq_false hc)).1 hmark
  have hspace : ¬(c = ' ' ∨ c = '\t' ∨ c = '\r') := by
    rw [← isLayout_iff, hc]
    decide
  exact (if_neg hcomment).trans ((if_neg hspace).trans (if_neg hn))

theorem ofText_of_isAlpha (hc : c.isAlpha = true) : ofText (c :: rest) = word (c :: rest) := by
  rw [ofText_of_not_isLayout, if_pos hc]
  · rw [Bool.eq_false_iff, ne_eq, isLayout_iff]
    rintro (rfl | rfl | rfl) <;> contradiction
  · rintro rfl
    contradiction
  · rintro ⟨rfl, -⟩
    contradiction

theorem ofText_of_isDigit (hc : c.isDigit = true) :
    ofText (c :: rest) =
      ⟨.number, numeral (c :: rest), (numeral (c :: rest)).length⟩ := by
  have ha : ¬c.isAlpha = true := by simp [isAlpha_eq_false_of_isDigit hc]
  rw [ofText_of_not_isLayout, if_neg ha, if_neg, if_pos hc]
  · rintro ⟨rfl, -⟩
    contradiction
  · rw [Bool.eq_false_iff, ne_eq, isLayout_iff]
    rintro (rfl | rfl | rfl) <;> contradiction
  · rintro rfl
    contradiction
  · rintro ⟨rfl, -⟩
    contradiction

theorem ofText_label (hrest : rest.head?.any Char.isAlpha = true) :
    ofText (':' :: rest) =
      ⟨.identifier, ':' :: lowered (rest.takeWhile isWordChar),
        (rest.takeWhile isWordChar).length + 1⟩ := by
  rw [ofText_of_not_isLayout rfl (by decide) (by simp), if_neg (by decide), if_pos ⟨rfl, hrest⟩]

theorem ofText_literal {q : List Char} (closed : escapedAfter false q = false)
    (quotes : QuotesEscaped false q) :
    ofText ('"' :: (q ++ '"' :: rest)) = ⟨.string, q, q.length + 2⟩ := by
  have hopen : openQuote? (q ++ '"' :: rest) = some q.length := by
    rw [openQuote?_eq]
    exact closingQuote?_eq_some_iff.2 ⟨q, rest, rfl, rfl, closed, quotes⟩
  rw [ofText_of_not_isLayout rfl (by decide) (by simp), if_neg (by decide), if_neg (by simp),
    if_neg (by decide), if_pos rfl, hopen]
  simp

theorem ofText_mark (hc : isMark c = true) (hmark : ¬(c = '/' ∧ rest.head? = some '/'))
    (hcolon : c = ':' → Stops Char.isAlpha rest) (hquote : c = '"' → QuotesEscaped false rest) :
    ofText (c :: rest) = mark c (c :: rest) := by
  obtain ⟨hlayout, hn, ha, hd⟩ := isMark_iff.1 hc
  have hopen : (if c = '"' then openQuote? rest else none) = none := by
    split
    · rename_i h
      rw [openQuote?_eq, closingQuote?_eq_none_iff]
      exact hquote h
    · rfl
  rw [ofText_of_not_isLayout hlayout hn hmark, if_neg (by simp [ha]), if_neg,
    if_neg (by simp [hd]), hopen]
  rintro ⟨h, hrest⟩
  exact Bool.eq_false_iff.1 (hcolon h) hrest

theorem word_append {w : List Char} (hw : ∀ d ∈ w, isWordChar d = true)
    (stops : Stops isWordChar rest) :
    word (w ++ rest) =
      ⟨if lowered w ∈ standard.keywords then .keyword else .identifier, lowered w, w.length⟩ := by
  rw [word, wordCharacter_eq, stops.takeWhile_append hw, length_lowered]
  simp only [mem_keywords_iff]

theorem mark_of_noPair (noPair : Stops (fun d => longSymbols.contains [c, d]) rest) :
    mark c (c :: rest) =
      if [c] ∈ shortSymbols then ⟨.symbol, [c], 1⟩ else ⟨.unknown, [c], 1⟩ := by
  have hlong : (c :: rest).take 2 ∉ longSymbols := by
    cases rest with
    | nil =>
      intro h
      have := length_of_mem_longSymbols _ h
      simp at this
    | cons d rest => simpa [Stops] using noPair
  rw [mark, if_neg (mt mem_pairs_iff.1 hlong)]
  simp only [mem_singles_iff]

/-- A run of digits, when no fraction follows it. -/
theorem numeral_integer {w : List Char} (digits : ∀ d ∈ w, d.isDigit = true)
    (stops : Stops Char.isDigit rest) (noFraction : ∀ d, ['.', d] <+: rest → d.isDigit = false) :
    numeral (w ++ rest) = w := by
  have htake := stops.takeWhile_append digits
  rw [numeral, htake, if_neg]
  rintro ⟨hdot, hmore⟩
  apply hmore
  cases rest with
  | nil => simp at hdot
  | cons c rest =>
    have hc : c = '.' := by simpa using hdot
    subst hc
    have hdrop : (w ++ '.' :: rest).drop (w.length + 1) = rest := by simp [List.drop_append]
    rw [hdrop]
    cases rest with
    | nil => rfl
    | cons d rest => simp [noFraction d (by simp)]

theorem numeral_fraction {w v : List Char} (digits : ∀ d ∈ w, d.isDigit = true)
    (decimals : ∀ d ∈ v, d.isDigit = true) (hne : v ≠ []) (stops : Stops Char.isDigit rest) :
    numeral (w ++ '.' :: (v ++ rest)) = w ++ '.' :: v := by
  have hdot : Stops Char.isDigit ('.' :: (v ++ rest)) := stops_cons_iff.2 rfl
  have hdrop : (w ++ '.' :: (v ++ rest)).drop (w.length + 1) = v ++ rest := by
    simp [List.drop_append]
  rw [numeral, hdot.takeWhile_append digits, hdrop, stops.takeWhile_append decimals,
    if_pos ⟨by simp, hne⟩]

end Reading

namespace Lexicon

/-- Every symbol starts with a mark that starts neither a label nor a literal. -/
theorem isMark_of_mem_symbols {c : Char} {s : List Char} (h : c :: s ∈ longSymbols ++ shortSymbols) :
    isMark c = true ∧ c ≠ ':' ∧ c ≠ '"' := by
  have hall : ∀ s ∈ longSymbols ++ shortSymbols,
      s.head?.all (fun c => isMark c && c != ':' && c != '"') = true := by decide
  simpa [and_assoc] using hall _ h

end Lexicon

namespace Lexeme

open Lexicon Reading

variable {l : Lexeme}

/-- A token of the grammar is what its text starts with. -/
theorem Standard.reading_eq (h : l.Standard) : ofText (l.span ++ l.rest) = l.reading := by
  cases h with
  | @comment blanks body rest blank line stops =>
    have htake : (body ++ rest).takeWhile (· ≠ '\n') = body :=
      stops.takeWhile_append fun c hc => by
        have : c ≠ '\n' := fun h => line (h ▸ hc)
        simpa using this
    simp only [List.append_assoc, List.cons_append]
    rw [ofText_comment blank, Reading.comment, htake]
    simp [reading]
    omega
  | @whitespace c w rest layout stops noMark =>
    have htake := stops.takeWhile_append layout
    have hmark : ¬['/', '/'] <+: (c :: w ++ rest).dropWhile isBlank := fun h =>
      have h := (mark_prefix_append_iff layout stops).1 h
      noMark h.1 h.2
    rw [List.cons_append] at htake hmark ⊢
    rw [ofText_whitespace (layout c (by simp)) hmark, htake]
    rfl
  | newline => rfl
  | @keyword c w rest alpha word stops mem =>
    have hreading := word_append (forall_mem_word alpha word) stops
    rw [if_pos mem] at hreading
    exact (ofText_of_isAlpha alpha).trans hreading
  | @name c w rest alpha word stops notMem =>
    have hreading := word_append (forall_mem_word alpha word) stops
    rw [if_neg notMem] at hreading
    exact (ofText_of_isAlpha alpha).trans hreading
  | @label c w rest alpha word stops =>
    have htake := stops.takeWhile_append (forall_mem_word alpha word)
    rw [List.cons_append, List.cons_append] at *
    rw [ofText_label (by simpa using alpha), htake]
    rfl
  | @integer c w rest digits stops noFraction =>
    have hnumeral := numeral_integer digits stops noFraction
    rw [List.cons_append] at hnumeral ⊢
    rw [ofText_of_isDigit (digits c (by simp)), hnumeral]
    rfl
  | @fraction c w d v rest digits decimals stops =>
    have hnumeral := numeral_fraction digits decimals (by simp) stops
    simp only [List.append_assoc, List.cons_append] at hnumeral ⊢
    rw [ofText_of_isDigit (digits c (by simp)), hnumeral]
    rfl
  | @string q rest closed quotes =>
    simp only [List.append_assoc, List.cons_append, List.nil_append]
    rw [ofText_literal closed quotes]
    simp [reading]
  | @pair c d rest mem =>
    obtain ⟨hc, hcolon, hquote⟩ := isMark_of_mem_symbols (List.mem_append_left _ mem)
    have hslash : ¬(c = '/' ∧ (d :: rest).head? = some '/') := by
      rintro ⟨rfl, hd⟩
      cases Option.some.inj hd
      exact absurd mem (by decide)
    rw [List.cons_append, List.cons_append, List.nil_append,
      ofText_mark hc hslash (fun h => absurd h hcolon) (fun h => absurd h hquote), Reading.mark,
      List.take_succ_cons, List.take_succ_cons, List.take_zero, if_pos (mem_pairs_iff.2 mem)]
    rfl
  | @single c rest mem noPair =>
    obtain ⟨hc, hcolon, hquote⟩ := isMark_of_mem_symbols (List.mem_append_right _ mem)
    have hslash : ¬(c = '/' ∧ rest.head? = some '/') := by
      rintro ⟨rfl, hrest⟩
      simp [Stops, hrest] at noPair
    have hlong : Stops (fun d => longSymbols.contains [c, d]) rest :=
      noPair.mono fun d hd => by simpa using .inr (by simpa using hd)
    rw [List.cons_append, List.nil_append,
      ofText_mark hc hslash (fun h => absurd h hcolon) (fun h => absurd h hquote),
      mark_of_noPair hlong, if_pos mem]
    rfl
  | @unknown c rest hc foreign noPair noLabel noLiteral =>
    have hslash : ¬(c = '/' ∧ rest.head? = some '/') := by
      rintro ⟨rfl, -⟩
      exact foreign (by decide)
    rw [List.cons_append, List.nil_append, ofText_mark hc hslash noLabel noLiteral,
      mark_of_noPair noPair, if_neg foreign]
    rfl

/-- What a lexeme says of its text determines it. -/
theorem eq_of_reading_eq {l l' : Lexeme} (htext : l.span ++ l.rest = l'.span ++ l'.rest)
    (h : l.reading = l'.reading) : l = l' := by
  obtain ⟨kind, value, span, rest⟩ := l
  obtain ⟨kind', value', span', rest'⟩ := l'
  simp only [reading, Reading.mk.injEq] at h
  obtain ⟨rfl, rfl, hlen⟩ := h
  obtain ⟨rfl, rfl⟩ := List.append_inj htext hlen
  rfl

theorem Standard.lexeme_eq (h : l.Standard) : standard.lexeme (l.span ++ l.rest) = l := by
  apply eq_of_reading_eq (standard.span_append_rest _)
  rw [reading_lexeme, h.reading_eq]

end Lexeme

/-! ## Every text is cut as the grammar says -/

/-- A token of the grammar stands at the start of the text. -/
def HasToken (text : List Char) : Prop :=
  ∃ l : Lexeme, l.Standard ∧ l.span ++ l.rest = text

namespace HasToken

open Lexicon

variable {c : Char} {rest : List Char}

theorem forall_mem_takeWhile (p : Char → Bool) (text : List Char) :
    ∀ c ∈ text.takeWhile p, p c = true := fun _ => List.mem_takeWhile_imp

theorem break_notMem_takeWhile (text : List Char) : '\n' ∉ text.takeWhile (· ≠ '\n') := by
  intro hmem
  simpa using forall_mem_takeWhile (· ≠ '\n') text _ hmem

/-- A run that starts with its first character. -/
theorem forall_mem_cons_takeWhile {p : Char → Bool} (hc : p c = true) (text : List Char) :
    ∀ d ∈ c :: text.takeWhile p, p d = true :=
  List.forall_mem_cons.2 ⟨hc, forall_mem_takeWhile p text⟩

theorem comment {text : List Char} (h : ['/', '/'] <+: text.dropWhile isBlank) :
    HasToken text := by
  obtain ⟨body, hbody⟩ := h
  refine ⟨_, .comment (forall_mem_takeWhile isBlank text) (break_notMem_takeWhile body)
    (stops_dropWhile (· ≠ '\n') body), ?_⟩
  have htext := List.takeWhile_append_dropWhile (p := isBlank) (l := text)
  rw [← hbody] at htext
  simpa using htext

theorem whitespace (hc : isLayout c = true)
    (hmark : ¬['/', '/'] <+: (c :: rest).dropWhile isBlank) : HasToken (c :: rest) := by
  have layout := forall_mem_cons_takeWhile hc rest
  have stops := stops_dropWhile isLayout rest
  refine ⟨_, .whitespace layout stops fun blank hrest => hmark ?_, by simp⟩
  have := (Reading.mark_prefix_append_iff layout stops).2 ⟨blank, hrest⟩
  simpa using this

theorem word (hc : c.isAlpha = true) : HasToken (c :: rest) := by
  have word := forall_mem_takeWhile isWordChar rest
  have stops := stops_dropWhile isWordChar rest
  by_cases hk : lowered (c :: rest.takeWhile isWordChar) ∈ standard.keywords
  · exact ⟨_, .keyword hc word stops hk, by simp⟩
  · exact ⟨_, .name hc word stops hk, by simp⟩

theorem label (hc : c.isAlpha = true) : HasToken (':' :: c :: rest) :=
  ⟨_, .label hc (forall_mem_takeWhile isWordChar rest) (stops_dropWhile isWordChar rest), by simp⟩

theorem number (hc : c.isDigit = true) : HasToken (c :: rest) := by
  have digits := forall_mem_cons_takeWhile hc rest
  have hrest := List.takeWhile_append_dropWhile (p := Char.isDigit) (l := rest)
  by_cases h : ∃ d, ['.', d] <+: rest.dropWhile Char.isDigit ∧ d.isDigit = true
  · obtain ⟨d, ⟨more, hmore⟩, hd⟩ := h
    refine ⟨_, .fraction digits (forall_mem_cons_takeWhile hd more)
      (stops_dropWhile Char.isDigit more), ?_⟩
    rw [← hmore] at hrest
    simpa using hrest
  · refine ⟨_, .integer digits (stops_dropWhile Char.isDigit rest) fun d hd => ?_, by simp⟩
    exact Bool.eq_false_iff.2 fun hdigit => h ⟨d, hd, hdigit⟩

theorem literal (h : ¬QuotesEscaped false rest) : HasToken ('"' :: rest) := by
  cases hclose : closingQuote? false rest with
  | none => exact absurd (closingQuote?_eq_none_iff.1 hclose) h
  | some i =>
    obtain ⟨q, r, rfl, -, closed, quotes⟩ := closingQuote?_eq_some_iff.1 hclose
    exact ⟨_, @Lexeme.Standard.string q r closed quotes, by simp⟩

theorem mark (hc : isMark c = true) (hslash : ¬(c = '/' ∧ rest.head? = some '/'))
    (hcolon : c = ':' → Stops Char.isAlpha rest) (hquote : c = '"' → QuotesEscaped false rest) :
    HasToken (c :: rest) := by
  by_cases hpair : Stops (fun d => longSymbols.contains [c, d]) rest
  · by_cases hsingle : [c] ∈ shortSymbols
    · refine ⟨_, .single hsingle ?_, rfl⟩
      cases rest with
      | nil => exact stops_nil _
      | cons d rest =>
        rw [stops_cons_iff, Bool.eq_false_iff] at hpair ⊢
        intro h
        rcases List.mem_cons.1 (List.contains_iff_mem.1 h) with heq | hmem
        · cases heq
          exact hslash ⟨rfl, rfl⟩
        · exact hpair (List.contains_iff_mem.2 hmem)
    · exact ⟨_, .unknown hc hsingle hpair hcolon hquote, rfl⟩
  · cases rest with
    | nil => exact absurd (stops_nil _) hpair
    | cons d rest =>
      rw [stops_cons_iff, Bool.not_eq_false, List.contains_iff_mem] at hpair
      exact ⟨_, .pair hpair, rfl⟩

/-- Every text but the empty one starts with a token of the grammar. -/
theorem of_ne_nil {text : List Char} (hne : text ≠ []) : HasToken text := by
  obtain ⟨c, rest, rfl⟩ := List.exists_cons_of_ne_nil hne
  by_cases hcomment : ['/', '/'] <+: (c :: rest).dropWhile isBlank
  · exact comment hcomment
  by_cases hlayout : isLayout c = true
  · exact whitespace hlayout hcomment
  by_cases hbreak : c = '\n'
  · subst hbreak
    exact ⟨_, .newline, rfl⟩
  by_cases halpha : c.isAlpha = true
  · exact word halpha
  by_cases hdigit : c.isDigit = true
  · exact number hdigit
  by_cases hcolon : c = ':' ∧ rest.head?.any Char.isAlpha = true
  · obtain ⟨rfl, hrest⟩ := hcolon
    cases rest with
    | nil => contradiction
    | cons d more => exact label (by simpa using hrest)
  by_cases hquote : c = '"' ∧ ¬QuotesEscaped false rest
  · obtain ⟨rfl, hopen⟩ := hquote
    exact literal hopen
  have hmark : isMark c = true := by simp [isMark, hlayout, hbreak, halpha, hdigit]
  refine mark hmark ?_ ?_ ?_
  · rwa [Reading.mark_prefix_iff (isBlank_eq_false (Bool.eq_false_iff.2 hlayout))] at hcomment
  · exact fun hc => Bool.eq_false_iff.2 fun hrest => hcolon ⟨hc, hrest⟩
  · exact fun hc => Classical.not_not.1 fun hopen => hquote ⟨hc, hopen⟩

end HasToken

namespace Lexeme

open Lexicon

variable {l : Lexeme}

/-- Whatever the standard lexicon finds is a token of the grammar. -/
theorem standard_lexeme {text : List Char} (hne : text ≠ []) :
    (standard.lexeme text).Standard := by
  obtain ⟨l, hl, rfl⟩ := HasToken.of_ne_nil hne
  rwa [hl.lexeme_eq]

theorem Standard.span_ne_nil (h : l.Standard) : l.span ≠ [] := by
  cases h <;> simp

/-- The tokens of the grammar are those that the standard lexicon finds. -/
theorem standard_iff : l.Standard ↔ l.span ≠ [] ∧ standard.lexeme (l.span ++ l.rest) = l := by
  constructor
  · exact fun h => ⟨h.span_ne_nil, h.lexeme_eq⟩
  · rintro ⟨hne, hl⟩
    have htext : l.span ++ l.rest ≠ [] := by simp [hne]
    exact hl ▸ standard_lexeme htext

theorem Standard.kind_ne_endOfInput (h : l.Standard) : l.kind ≠ .endOfInput := by
  cases h <;> simp

/-- Whitespace is layout, and no comment starts with all of it. -/
theorem Standard.of_whitespace (h : l.Standard) (hk : l.kind = .whitespace) :
    l.span = l.value ∧ l.value ≠ [] ∧ (∀ c ∈ l.value, isLayout c = true) ∧ Stops isLayout l.rest ∧
      ((∀ c ∈ l.value, isBlank c = true) → ¬['/', '/'] <+: l.rest) := by
  cases h with
  | whitespace layout stops noMark => exact ⟨rfl, by simp, layout, stops, noMark⟩
  | _ => contradiction

/-- A comment has blanks, its mark and its value, and goes to the end of the line. -/
theorem Standard.of_comment (h : l.Standard) (hk : l.kind = .comment) :
    ∃ blanks, l.span = blanks ++ '/' :: '/' :: l.value ∧ (∀ c ∈ blanks, isBlank c = true) ∧
      '\n' ∉ l.value ∧ Stops (· ≠ '\n') l.rest := by
  cases h with
  | comment blank line stops => exact ⟨_, rfl, blank, line, stops⟩
  | _ => contradiction

/-- Induction along the tokens of a text: what holds at the end of a text, and holds before a token
whenever it holds behind it, holds of every text. -/
@[elab_as_elim]
theorem standard_induction {P : List Char → Prop} (nil : P [])
    (token : ∀ l : Lexeme, l.Standard → P l.rest → P (l.span ++ l.rest)) (text : List Char) :
    P text :=
  if h : text = [] then h ▸ nil
  else by
    have hstep := token _ (standard_lexeme h) (standard_induction nil token _)
    rwa [standard.span_append_rest] at hstep
termination_by text.length
decreasing_by exact standard.length_rest_lexeme_lt h

end Lexeme

namespace Tokenizer

/-- The token of the grammar that stands at the cursor is the next one. -/
theorem next?_of_standard {t : Tokenizer} (hL : t.lexicon = .standard) (hf : t.finished = false)
    {l : Lexeme} (hl : l.Standard) (hrest : t.rest = l.span ++ l.rest) :
    t.next? = some (⟨l.kind, String.ofList l.value, t.position⟩,
      { t with rest := l.rest, position := t.position.after l }) := by
  simp [next?, nextToken, hL, hf, hrest, hl.lexeme_eq, Token.isEnd, hl.kind_ne_endOfInput]

theorem drain_of_standard {l : Lexeme} (hl : l.Standard) (p : Position) :
    ({ rest := l.span ++ l.rest, position := p } : Tokenizer).drain.1 =
      ⟨l.kind, String.ofList l.value, p⟩ ::
        ({ rest := l.rest, position := p.after l } : Tokenizer).drain.1 := by
  rw [drain_of_next?_eq_some (next?_of_standard rfl rfl hl rfl)]

end Tokenizer

end Lexing
