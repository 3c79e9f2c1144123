import Lexing.Proofs.Case
import Lexing.Proofs.LineBreaks

/-!
Keywords. Whatever the list of keywords is, a token is a keyword if and only if the longest run of word
characters at its start is in the list, in lower case. The run may start with a digit or an underscore:
keywords are looked for before names and numbers, and nothing that is looked for before keywords starts
with a word character (`lexeme_of_keyword?`).

A keyword is a whole word, so that no word character follows it, and a name that is not introduced by a
colon is none of the keywords (`notMem_keywords_of_identifier`).
-/

namespace Lexing

namespace Lexicon

variable {L : Lexicon} {text : List Char}

/-! ## The keyword rule -/

theorem keyword?_eq_some_iff {l : Lexeme} :
    L.keyword? text = some l ↔
      text.takeWhile isWordChar ≠ [] ∧ lowered (text.takeWhile isWordChar) ∈ L.keywords ∧
        l = ⟨.keyword, lowered (text.takeWhile isWordChar), text.takeWhile isWordChar,
          text.dropWhile isWordChar⟩ := by
  have hrun : runLength isWordChar text ≠ 0 ↔ text.takeWhile isWordChar ≠ [] := by
    rw [runLength, ne_eq, List.length_eq_zero_iff]
  simp only [keyword?, Lexeme.ofLength_runLength, take_runLength, hrun]
  constructor
  · intro h
    split at h
    · rename_i hword
      cases h
      exact ⟨hword.1, hword.2, rfl⟩
    · contradiction
  · rintro ⟨hne, hmem, rfl⟩
    rw [if_pos ⟨hne, hmem⟩]

theorem mem_keywords_withKeywords {words : List String} {w : List Char} :
    w ∈ (L.withKeywords words).keywords ↔ w ≠ [] ∧ w ∈ words.map fun k => lowered k.toList := by
  rw [withKeywords, List.mem_filter, and_comm]
  simp

/-- Comments and whitespace do not start with a word character, so that a keyword is found before all
else. -/
theorem lexeme_of_keyword? (hrules : L.rules = Rule.priority) (hcomment : L.comment = .comment)
    {l : Lexeme} (h : L.keyword? text = some l) : L.lexeme text = l := by
  obtain ⟨hne, -⟩ := keyword?_eq_some_iff.1 h
  cases text with
  | nil => exact absurd rfl hne
  | cons c rest =>
    have hc : isWordChar c = true := by
      by_contra hc
      exact hne (List.takeWhile_cons_of_neg hc)
    have hlayout : isLayout c = false := by
      rw [Bool.eq_false_iff, ne_eq, isLayout_iff]
      rintro (rfl | rfl | rfl) <;> contradiction
    have hmark : ¬['/', '/'] <+: (c :: rest).dropWhile isBlank := by
      rw [Reading.mark_prefix_iff (isBlank_eq_false hlayout)]
      rintro ⟨rfl, -⟩
      contradiction
    have hno : L.comment? (c :: rest) = none := by
      have heq : L.comment? (c :: rest) = standard.comment? (c :: rest) := by
        rw [comment?, hcomment]
        rfl
      rw [heq, comment?_standard, if_neg hmark]
    have hwhite : Lexeme.whitespace? (c :: rest) = none := by
      rw [Lexeme.whitespace?_cons, if_neg (Bool.eq_false_iff.1 hlayout)]
    simp [lexeme, recognise?, hrules, Rule.priority, List.findSome?_cons, lexeme?, hno, hwhite, h,
      Lexeme.endOfInput?]

/-- A token is a keyword if and only if the word that it starts with is one. -/
theorem kind_eq_keyword_iff (hrules : L.rules = Rule.priority) (hcomment : L.comment = .comment) :
    (L.lexeme text).kind = .keyword ↔
      text.takeWhile isWordChar ≠ [] ∧ lowered (text.takeWhile isWordChar) ∈ L.keywords := by
  constructor
  · intro h
    obtain ⟨-, hr⟩ := lexeme?_of_kind_eq (r := .keyword) h (by decide)
    obtain ⟨hne, hmem, -⟩ := keyword?_eq_some_iff.1 hr
    exact ⟨hne, hmem⟩
  · rintro ⟨hne, hmem⟩
    rw [lexeme_of_keyword? hrules hcomment (keyword?_eq_some_iff.2 ⟨hne, hmem, rfl⟩)]

/-- A keyword is a whole word. -/
theorem lexeme_of_kind_eq_keyword (h : (L.lexeme text).kind = .keyword) :
    L.lexeme text = ⟨.keyword, lowered (text.takeWhile isWordChar), text.takeWhile isWordChar,
      text.dropWhile isWordChar⟩ := by
  obtain ⟨-, hr⟩ := lexeme?_of_kind_eq (r := .keyword) h (by decide)
  exact (keyword?_eq_some_iff.1 hr).2.2

/-- The value of a keyword has word characters only, so that a keyword with any other is never found. -/
theorem value_ne_of_kind_eq_keyword (h : (L.lexeme text).kind = .keyword) {k : List Char}
    (hk : ∃ c ∈ k, isWordChar c = false) : (L.lexeme text).value ≠ lowered k := by
  obtain ⟨c, hc, hout⟩ := hk
  intro heq
  have hword : ∀ d ∈ lowered (text.takeWhile isWordChar), isWordChar d = true :=
    Caseless.isWordChar.forall_mem_lowered fun d hd => List.mem_takeWhile_imp hd
  have hvalue : (L.lexeme text).value = lowered (text.takeWhile isWordChar) :=
    congrArg Lexeme.value (lexeme_of_kind_eq_keyword h)
  rw [heq] at hvalue
  have hin := hword c.toLower (hvalue ▸ List.mem_map_of_mem hc)
  rw [Caseless.isWordChar c, hout] at hin
  contradiction

/-! ## Names -/

/-- An identifier without a colon is a whole word as well. -/
theorem value_of_identifier (hidentifier : L.identifier = .identifier)
    (h : (L.lexeme text).kind = .identifier) (hcolon : (L.lexeme text).span.head? ≠ some ':') :
    text.takeWhile isWordChar ≠ [] ∧ (L.lexeme text).value = lowered (text.takeWhile isWordChar) := by
  obtain ⟨-, hr⟩ := lexeme?_of_kind_eq (r := .identifier) h (by decide)
  have hrule : standard.identifier? text = some (L.lexeme text) := by
    rw [← hr]
    simp only [lexeme?, identifier?, hidentifier]
    rfl
  rw [identifier?_standard] at hrule
  split at hrule
  · contradiction
  · rename_i hlength
    have hlexeme := Option.some.inj hrule
    cases text with
    | nil => contradiction
    | cons c rest =>
      have halpha : c.isAlpha = true := by
        by_contra halpha
        -- Only the colon may stand at the start of an identifier without being a letter.
        have hstart : c = ':' ∧ rest.head?.any Char.isAlpha = true := by
          by_contra hstart
          exact hlength (Pattern.identifierLength_eq_zero (Bool.eq_false_iff.2 halpha) hstart)
        obtain ⟨n, hn⟩ := Nat.exists_eq_succ_of_ne_zero hlength
        rw [← hlexeme, Lexeme.ofLength, hn, List.take_succ_cons, hstart.1] at hcolon
        exact hcolon rfl
      rw [← hlexeme, Pattern.identifierLength_of_isAlpha halpha, Lexeme.ofLength_runLength]
      refine ⟨?_, rfl⟩
      rw [List.takeWhile_cons_of_pos (isWordChar_of_isAlpha halpha)]
      simp

/-- An identifier without a colon is no keyword. -/
theorem notMem_keywords_of_identifier (hrules : L.rules = Rule.priority)
    (hcomment : L.comment = .comment) (hidentifier : L.identifier = .identifier)
    (h : (L.lexeme text).kind = .identifier) (hcolon : (L.lexeme text).span.head? ≠ some ':') :
    (L.lexeme text).value ∉ L.keywords := by
  obtain ⟨hne, hvalue⟩ := value_of_identifier hidentifier h hcolon
  intro hmem
  have hkeyword := (kind_eq_keyword_iff hrules hcomment).2 ⟨hne, hvalue ▸ hmem⟩
  rw [h] at hkeyword
  contradiction

end Lexicon

/-- With whatever keywords and before whatever token of a source, let `word` be all word characters that
the text goes on with. The token is a keyword if and only if there is such a word and it is in the list,
but for the case of letters; then the token is all of the word, and no word character follows. A name
without a colon is not in the list, and what is in the list but has any other character is never found. -/
theorem keyword_iff_word (words : List String) (source : String) :
    let L : Lexicon := Lexicon.standard.withKeywords words
    let t := Tokenizer.load { lexicon := L } source
    let list := words.map fun k => lowered k.toList
    L.tokenize source = t.sequence.map Taken.token ∧
      ∀ (pre : List Taken) (g : Taken) (post : List Taken), t.sequence = pre ++ g :: post →
        ∃ after : List Char, source.toList = Taken.text pre ++ (g.span ++ after) ∧
          let word := (g.span ++ after).takeWhile isWordChar
          (g.token.kind = .keyword ↔ word ≠ [] ∧ lowered word ∈ list) ∧
          (g.token.kind = .keyword → g.span = word ∧ g.token.value = String.ofList (lowered word) ∧
            Stops isWordChar after) ∧
          (g.token.kind = .identifier → g.span.head? ≠ some ':' → g.token.value.toList ∉ list) ∧
          ∀ k ∈ words, (∃ c ∈ k.toList, isWordChar c = false) → g.token.kind = .keyword →
            g.token.value ≠ String.ofList (lowered k.toList) := by
  intro L t list
  refine ⟨Tokenizer.drain_eq_sequence t, fun pre g post hseq => ?_⟩
  have hmem : g ∈ t.sequence := by simp [hseq]
  have hlexicon : g.before.lexicon = L := Tokenizer.lexicon_of_mem_sequence hmem
  let l := L.lexeme g.before.rest
  have hspan : g.span = l.span := by rw [Taken.span, hlexicon]
  have htext : g.span ++ l.rest = g.before.rest := by
    rw [hspan]
    exact L.span_append_rest _
  have htoken : g.token = ⟨l.kind, String.ofList l.value, g.before.position⟩ := by
    rw [Tokenizer.token_of_mem_sequence hmem, Tokenizer.nextToken, hlexicon]
  have hlist {w : List Char} (hne : w ≠ []) : lowered w ∈ L.keywords ↔ lowered w ∈ list := by
    rw [Lexicon.mem_keywords_withKeywords, and_iff_right (by simpa [lowered] using hne)]
  refine ⟨l.rest, ?_, ?_⟩
  · rw [htext]
    exact (Tokenizer.run_of_sequence_eq hseq).text_append_rest.symm
  · rw [htext, htoken, hspan]
    intro word
    refine ⟨?_, fun hk => ?_, fun hk hcolon => ?_, fun k _ hout hk => ?_⟩
    · rw [Lexicon.kind_eq_keyword_iff rfl rfl]
      exact and_congr_right hlist
    · have hlexeme : l = _ := Lexicon.lexeme_of_kind_eq_keyword hk
      rw [hlexeme]
      exact ⟨rfl, rfl, stops_dropWhile isWordChar _⟩
    · obtain ⟨hne, hvalue⟩ := Lexicon.value_of_identifier rfl hk hcolon
      have hnot := Lexicon.notMem_keywords_of_identifier rfl rfl rfl hk hcolon
      rw [hvalue, hlist hne, ← hvalue] at hnot
      rwa [String.toList_ofList]
    · intro heq
      exact Lexicon.value_ne_of_kind_eq_keyword hk hout (String.ofList_injective heq)

/-- Words that start with a digit or an underscore are keywords behind a number as well as at the start
of the source, but not in the middle of a longer word. -/
theorem keyword_iff_word_of_digits :
    let L := Lexicon.standard.withKeywords ["42", "_", "a-b"]
    let t := Tokenizer.load { lexicon := L } "42 1._ 42_a-b"
    (L.tokenize "42 1._ 42_a-b").map (·.kind) = [.keyword, .whitespace, .number, .unknown, .keyword,
      .whitespace, .number, .unknown, .identifier, .symbol, .identifier, .endOfInput] ∧
      ∃ pre g post after, t.sequence = pre ++ g :: post ∧ g.token = ⟨.keyword, "_", ⟨1, 6⟩⟩ ∧
        g.span = (g.span ++ after).takeWhile isWordChar ∧ Stops isWordChar after := by
  intro L t
  obtain ⟨htokens, hwords⟩ := keyword_iff_word ["42", "_", "a-b"] "42 1._ 42_a-b"
  have hmem : (⟨.keyword, "_", ⟨1, 6⟩⟩ : Token) ∈ L.tokenize "42 1._ 42_a-b" := by decide +kernel
  rw [htokens] at hmem
  obtain ⟨g, hg, htoken⟩ := List.mem_map.1 hmem
  obtain ⟨pre, post, hseq⟩ := List.append_of_mem hg
  obtain ⟨after, -, -, hkeyword, -⟩ := hwords pre g post hseq
  obtain ⟨hspan, -, hstops⟩ := hkeyword (by rw [htoken])
  exact ⟨by decide +kernel, pre, g, post, after, hseq, htoken, hspan, hstops⟩

end Lexing
