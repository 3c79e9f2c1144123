import Lexing.Proofs.Case
import Lexing.Proofs.LineBreaks

/-!
What the tokens tell of their source. Values leave out quotes, line breaks, comment marks and the
blanks before these marks, and put words in lower case. Positions make up for most of it: a token
that does not end its line is as long as the next one stands to the right of it. So sources with the
same tokens are cut at the same places, and they differ at most in the case of the letters of words
and in which blanks stand before comment marks (`source_of_tokenize_eq`).
-/

namespace Lexing

/-! ## The spans of one token -/

/-- Spans in which a token of this kind may lie, when its value and its length are given. -/
inductive SpansAlike (kind : TokenKind) : List Char → List Char → Prop
  | same (w) : SpansAlike kind w w
  | word {w w'} (word : kind = .keyword ∨ kind = .identifier) (eq : lowered w = lowered w') :
      SpansAlike kind w w'
  | indent {blanks blanks' body} (comment : kind = .comment) (blank : ∀ c ∈ blanks, isBlank c = true)
      (blank' : ∀ c ∈ blanks', isBlank c = true) (length : blanks.length = blanks'.length) :
      SpansAlike kind (blanks ++ '/' :: body) (blanks' ++ '/' :: body)

/-- The characters at index `j` of two spans differ: in case, inside of a word, or as blanks before the
mark of a comment. -/
inductive MayDiffer (kind : TokenKind) (w w' : List Char) (j : Nat) (c c' : Char) : Prop
  | letter (word : kind = .keyword ∨ kind = .identifier) (left : c.isAlpha = true)
      (right : c'.isAlpha = true) (same : c.toLower = c'.toLower)
  | indent (comment : kind = .comment) (left : j < runLength isBlank w)
      (right : j < runLength isBlank w') (blank : isBlank c = true) (blank' : isBlank c' = true)

namespace SpansAlike

variable {kind : TokenKind} {w w' : List Char}

theorem length_eq (h : SpansAlike kind w w') : w.length = w'.length := by
  cases h with
  | same => rfl
  | word _ eq => rw [← length_lowered w, eq, length_lowered]
  | indent _ _ _ length => simp [length]

theorem runLength_isBlank {blanks : List Char} (blank : ∀ c ∈ blanks, isBlank c = true)
    (body : List Char) : runLength isBlank (blanks ++ '/' :: body) = blanks.length := by
  have hstop : Stops isBlank ('/' :: body) := stops_cons_iff.2 rfl
  rw [runLength, hstop.takeWhile_append blank]

theorem eq_or_mayDiffer (h : SpansAlike kind w w') {j : Nat} {c c' : Char} (hc : w[j]? = some c)
    (hc' : w'[j]? = some c') : c = c' ∨ MayDiffer kind w w' j c c' := by
  cases h with
  | same =>
    rw [hc] at hc'
    exact .inl (Option.some.inj hc')
  | word word eq =>
    have hlower : (lowered w)[j]? = (lowered w')[j]? := by rw [eq]
    simp only [lowered, List.getElem?_map, hc, hc', Option.map_some, Option.some.injEq] at hlower
    rcases eq_or_isAlpha_of_toLower_eq hlower with heq | ⟨halpha, halpha'⟩
    · exact .inl heq
    · exact .inr (.letter word halpha halpha' hlower)
  | @indent blanks blanks' body comment blank blank' length =>
    by_cases hj : j < blanks.length
    · right
      rw [List.getElem?_append_left hj] at hc
      rw [List.getElem?_append_left (length ▸ hj)] at hc'
      refine .indent comment ?_ ?_ (blank c (List.mem_of_getElem? hc))
        (blank' c' (List.mem_of_getElem? hc'))
      · rwa [runLength_isBlank blank]
      · rwa [runLength_isBlank blank', ← length]
    · left
      rw [List.getElem?_append_right (by omega)] at hc
      rw [List.getElem?_append_right (by omega), ← length, hc] at hc'
      exact Option.some.inj hc'

end SpansAlike

/-- The value of a token of the standard lexicon and the length of its span leave no more open. -/
theorem Spells.spansAlike {kind : TokenKind} {value w w' : List Char}
    (h : Spells .comment kind value w) (h' : Spells .comment kind value w')
    (hlength : kind ≠ .newline → w.length = w'.length) : SpansAlike kind w w' := by
  cases h with
  | whitespace | symbol | number | unknown | string | newline =>
    cases h'
    exact .same _
  | identifier =>
    generalize hv : lowered w = value at h'
    cases h'
    exact .word (.inr rfl) hv
  | keyword =>
    generalize hv : lowered w = value at h'
    cases h'
    exact .word (.inl rfl) hv
  | comment _ standard =>
    cases h' with
    | comment _ standard' =>
      obtain ⟨blanks, blank, -, rfl⟩ := standard rfl
      obtain ⟨blanks', blank', -, rfl⟩ := standard' rfl
      have hlength := hlength (by decide)
      simp only [List.length_append, List.length_cons] at hlength
      exact .indent rfl blank blank' (by omega)

/-! ## The tokens of two sources -/

namespace Taken

/-- The tokens are the same, and so are their spans but for what tokens do not tell. -/
structure Alike (g g' : Taken) : Prop where
  token_eq : g.token = g'.token
  spans : SpansAlike g.token.kind g.span g'.span

/-- The character at index `i` of the text that the tokens cover stands at index `j` in the span of
the token `g`. -/
def Covers (gs : List Taken) (g : Taken) (i j : Nat) : Prop :=
  j < g.span.length ∧ ∃ pre post, gs = pre ++ g :: post ∧ i = (text pre).length + j

theorem length_text_eq {gs gs' : List Taken} (h : List.Forall₂ Alike gs gs') :
    (text gs).length = (text gs').length := by
  induction h with
  | nil => rfl
  | cons hg _ ih => rw [text_cons, text_cons, List.length_append, List.length_append, ih,
      hg.spans.length_eq]

theorem Covers.cons {gs : List Taken} {g : Taken} {i j : Nat} (h : Covers gs g i j) (g₀ : Taken) :
    Covers (g₀ :: gs) g (g₀.span.length + i) j := by
  obtain ⟨hj, pre, post, rfl, rfl⟩ := h
  refine ⟨hj, g₀ :: pre, post, rfl, ?_⟩
  rw [text_cons, List.length_append]
  omega

/-- Characters at the same place of the texts belong to tokens at the same place. -/
theorem exists_covers {gs gs' : List Taken} (h : List.Forall₂ Alike gs gs') {i : Nat} {c c' : Char}
    (hc : (text gs)[i]? = some c) (hc' : (text gs')[i]? = some c') :
    ∃ g g' j, Covers gs g i j ∧ Covers gs' g' i j ∧ g.Alike g' ∧ g.span[j]? = some c ∧
      g'.span[j]? = some c' := by
  induction h generalizing i with
  | nil => simp [text] at hc
  | @cons g g' gs gs' hg _ ih =>
    have hlength := hg.spans.length_eq
    rw [text_cons] at hc hc'
    by_cases hi : i < g.span.length
    · have hi' : i < g'.span.length := by omega
      rw [List.getElem?_append_left hi] at hc
      rw [List.getElem?_append_left hi'] at hc'
      exact ⟨g, g', i, ⟨hi, [], gs, rfl, (Nat.zero_add i).symm⟩,
        ⟨hi', [], gs', rfl, (Nat.zero_add i).symm⟩, hg, hc, hc'⟩
    · obtain ⟨k, rfl⟩ : ∃ k, i = g.span.length + k := ⟨i - g.span.length, by omega⟩
      rw [List.getElem?_append_right (by omega), Nat.add_sub_cancel_left] at hc
      rw [hlength, List.getElem?_append_right (by omega), Nat.add_sub_cancel_left] at hc'
      obtain ⟨h, h', j, hcovers, hcovers', halike, hh, hh'⟩ := ih hc hc'
      refine ⟨h, h', j, hcovers.cons g, ?_, halike, hh, hh'⟩
      rw [hlength]
      exact hcovers'.cons g'

end Taken

namespace Tokenizer

variable {t u : Tokenizer}

theorem position_of_drain_eq (ht : t.finished = false) (hu : u.finished = false)
    (h : t.drain.1 = u.drain.1) : t.position = u.position := by
  have hhead : ∀ v : Tokenizer, v.finished = false →
      v.drain.1.head?.map Token.position = some v.position := by
    intro v hv
    cases hn : v.next? with
    | none => simp [next?_eq_none_iff.1 hn] at hv
    | some r =>
      obtain ⟨token, w⟩ := r
      obtain ⟨-, rfl, -⟩ := next?_eq_some hn
      rw [drain_of_next?_eq_some hn]
      rfl
  have heq := hhead t ht
  rw [h, hhead u hu] at heq
  exact (Option.some.inj heq).symm

/-- Where the same token is followed by the same position, it covers as many characters. -/
theorem length_span_eq (htoken : t.nextToken.1 = u.nextToken.1)
    (hposition : t.nextToken.2.position = u.nextToken.2.position)
    (hn : t.nextToken.1.kind ≠ .newline) :
    (Taken.mk t t.nextToken.1).span.length = (Taken.mk u u.nextToken.1).span.length := by
  have hstart : t.position = u.position := congrArg Token.position htoken
  have ht : (Taken.mk t t.nextToken.1).isNewline = false := by simpa [Taken.isNewline] using hn
  have hu : (Taken.mk u u.nextToken.1).isNewline = false := by
    simpa [Taken.isNewline, ← htoken] using hn
  rw [position_nextToken, position_nextToken, ht, hu, hstart] at hposition
  simpa [Position.right] using hposition

theorem alike_nextToken (ht : t.lexicon = .standard) (hu : u.lexicon = .standard)
    (htoken : t.nextToken.1 = u.nextToken.1)
    (hposition : t.rest ≠ [] → t.nextToken.2.position = u.nextToken.2.position) :
    (Taken.mk t t.nextToken.1).Alike ⟨u, u.nextToken.1⟩ := by
  refine ⟨htoken, ?_⟩
  have hkind : (Lexicon.standard.lexeme t.rest).kind = (Lexicon.standard.lexeme u.rest).kind := by
    simpa [nextToken, ht, hu] using congrArg Token.kind htoken
  have hempty : t.rest = [] ↔ u.rest = [] := by
    rw [← @Lexicon.kind_lexeme_eq_endOfInput_iff .standard,
      ← @Lexicon.kind_lexeme_eq_endOfInput_iff .standard, hkind]
  by_cases hr : t.rest = []
  · simp only [Taken.span, hr, hempty.1 hr, Lexicon.span_lexeme_nil]
    exact .same []
  · have hvalue : (Lexicon.standard.lexeme t.rest).value = (Lexicon.standard.lexeme u.rest).value := by
      simpa [nextToken, ht, hu] using congrArg (·.value.toList) htoken
    have hspells := Lexicon.standard.spelled_lexeme hr
    have hspells' := Lexicon.standard.spelled_lexeme (mt hempty.2 hr)
    rw [Lexeme.Spelled, ← hkind, ← hvalue] at hspells'
    have hlength := length_span_eq htoken (hposition hr)
    simp only [Taken.span, nextToken, ht, hu] at hlength ⊢
    exact hspells.spansAlike hspells' hlength

/-- Tokenizers that give the same tokens cut their texts at the same places. -/
theorem alike_of_drain_eq (ht : t.lexicon = .standard) (hu : u.lexicon = .standard)
    (h : t.drain.1 = u.drain.1) : List.Forall₂ Taken.Alike t.sequence u.sequence := by
  induction t using next_induction generalizing u with
  | ended t hn =>
    rw [drain_of_next?_eq_none hn, eq_comm, drain_eq_sequence, List.map_eq_nil_iff] at h
    rw [sequence_of_next?_eq_none hn, h]
    exact .nil
  | step t token t' hn ih =>
    cases hun : u.next? with
    | none => simp [drain_of_next?_eq_none hun, drain_of_next?_eq_some hn] at h
    | some r =>
      obtain ⟨token', u'⟩ := r
      rw [drain_of_next?_eq_some hn, drain_of_next?_eq_some hun] at h
      obtain ⟨rfl, hdrain⟩ := List.cons.inj h
      rw [sequence_of_next?_eq_some hn, sequence_of_next?_eq_some hun]
      have hrest := ih ((lexicon_of_next? hn).trans ht) ((lexicon_of_next? hun).trans hu) hdrain
      refine .cons ?_ hrest
      obtain ⟨-, htoken, ht'⟩ := next?_eq_some hn
      obtain ⟨-, htoken', hu'⟩ := next?_eq_some hun
      have halike := alike_nextToken ht hu (htoken.symm.trans htoken') ?_
      · rwa [← htoken, ← htoken'] at halike
      -- Behind every token but the last stands one more, and it tells where this one ends.
      · intro hr
        have hopen : token.isEnd = false := by
          rw [htoken]
          exact isEnd_nextToken_eq_false_iff.2 hr
        have hposition := position_of_drain_eq ((finished_of_next? hn).trans hopen)
          ((finished_of_next? hun).trans hopen) hdrain
        rwa [ht', hu'] at hposition

end Tokenizer

/-- Sources with the same tokens are equally long, and at every index they have the same character, or
letters that differ in case inside of one keyword or identifier, or blanks before the mark of one
comment. -/
theorem source_of_tokenize_eq (s s' : String) (h : tokenize s = tokenize s') :
    s.length = s'.length ∧
      ∀ i c c', s.toList[i]? = some c → s'.toList[i]? = some c' →
        c = c' ∨ ∃ g g' j, Taken.Covers (Tokenizer.load {} s).sequence g i j ∧
          Taken.Covers (Tokenizer.load {} s').sequence g' i j ∧ g.token = g'.token ∧
          MayDiffer g.token.kind g.span g'.span j c c' := by
  have halike := @Tokenizer.alike_of_drain_eq (Tokenizer.load {} s) (Tokenizer.load {} s') rfl rfl h
  have htext : Taken.text (Tokenizer.load {} s).sequence = s.toList := Tokenizer.text_sequence rfl
  have htext' : Taken.text (Tokenizer.load {} s').sequence = s'.toList :=
    Tokenizer.text_sequence rfl
  constructor
  · rw [← String.length_toList, ← String.length_toList, ← htext, ← htext']
    exact Taken.length_text_eq halike
  · intro i c c' hc hc'
    rw [← htext] at hc
    rw [← htext'] at hc'
    obtain ⟨g, g', j, hg, hg', hgg', hj, hj'⟩ := Taken.exists_covers halike hc hc'
    rcases hgg'.spans.eq_or_mayDiffer hj hj' with heq | hdiffer
    · exact .inl heq
    · exact .inr ⟨g, g', j, hg, hg', hgg'.token_eq, hdiffer⟩

/-- The two sources differ in a letter of a keyword and in the blanks before two comments. -/
theorem source_of_tokenize_eq_of_comments :
    let s := "IF // x\n \t//y"
    let s' := "iF\t// x\n\t //y"
    tokenize s = tokenize s' ∧ s ≠ s' ∧ s.length = s'.length ∧
      ∀ i c c', s.toList[i]? = some c → s'.toList[i]? = some c' →
        c = c' ∨ ∃ g g' j, Taken.Covers (Tokenizer.load {} s).sequence g i j ∧
          Taken.Covers (Tokenizer.load {} s').sequence g' i j ∧ g.token = g'.token ∧
          MayDiffer g.token.kind g.span g'.span j c c' :=
  ⟨by decide +kernel, by decide, source_of_tokenize_eq _ _ (by decide +kernel)⟩

end Lexing
