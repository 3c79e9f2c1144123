import Lexing.Proofs.LineBreaks
import Lexing.Proofs.OpenQuote

/-!
How far a token looks ahead. What the standard lexicon finds at the start of a text depends on the
characters that the token covers and on two characters behind them, and a line break behind the token
settles it as well. Text that is put behind those can only change a quote that opens a literal
without an end: it may bring the end.

Tokens therefore stay as they are when the source grows at its end, up to the last one that has two
characters behind it (`tokenize_append_take`).
-/

namespace Lexing

/-- Put behind `rest`, the text `more` is too far off to change a token that stands before `rest`: two
characters lie between them, or a line break comes first. -/
def Settled (rest more : List Char) : Prop :=
  2 ≤ rest.length ∨ more.head? = some '\n'

section Settled

variable {rest rest' more : List Char}

theorem Settled.mono (h : Settled rest more) (hle : rest.length ≤ rest'.length) :
    Settled rest' more :=
  h.imp hle.trans' id

/-- A run that stops at a line break, if nowhere before, stops where it has stopped. -/
theorem Stops.append {p : Char → Bool} (h : Stops p rest) (hset : Settled rest more)
    (hp : p '\n' = false) : Stops p (rest ++ more) := by
  cases rest with
  | cons c rest => exact stops_cons_iff.2 (stops_cons_iff.1 h)
  | nil =>
    have hbreak : more.head? = some '\n' := hset.resolve_left (by simp)
    simp [Stops, hbreak, hp]

/-- Two characters that are no line breaks stand in `rest` already. -/
theorem Settled.prefix_of_append {a b : Char} (hset : Settled rest more)
    (h : [a, b] <+: rest ++ more) (ha : a ≠ '\n') (hb : b ≠ '\n') : [a, b] <+: rest := by
  match rest, hset with
  | _ :: _ :: _, _ => exact List.prefix_of_prefix_length_le h (List.prefix_append _ _) (by simp)
  | [], .inr hbreak => cases more <;> simp_all
  | [c], .inr hbreak => cases more <;> simp_all

end Settled

/-! ## One token -/

namespace Lexeme

open Lexicon

variable {l : Lexeme} {more : List Char}

/-- The token in a text that goes on behind its end. -/
def extend (l : Lexeme) (more : List Char) : Lexeme :=
  { l with rest := l.rest ++ more }

/-- Every token but an open quote stays a token of the grammar when text too far off is put behind
it. -/
theorem Standard.extend (h : l.Standard) (hopen : ¬(l.kind = .unknown ∧ l.value = ['"']))
    (hset : Settled l.rest more) : (l.extend more).Standard := by
  have hlong (c : Char) : longSymbols.contains [c, '\n'] = false := by
    rw [Bool.eq_false_iff, ne_eq, List.contains_iff_mem]
    intro h
    exact break_notMem_of_mem_symbols (List.mem_append_left _ h) (by simp)
  cases h with
  | comment blank line stops => exact .comment blank line (stops.append hset rfl)
  | whitespace layout stops noMark =>
    refine .whitespace layout (stops.append hset rfl) fun blank hmark => noMark blank ?_
    exact hset.prefix_of_append hmark (by decide) (by decide)
  | newline => exact .newline
  | keyword alpha word stops mem => exact .keyword alpha word (stops.append hset rfl) mem
  | name alpha word stops notMem => exact .name alpha word (stops.append hset rfl) notMem
  | label alpha word stops => exact .label alpha word (stops.append hset rfl)
  | integer digits stops noFraction =>
    refine .integer digits (stops.append hset rfl) fun d hd => ?_
    by_cases hbreak : d = '\n'
    · rw [hbreak]
      rfl
    · exact noFraction d (hset.prefix_of_append hd (by decide) hbreak)
  | fraction digits decimals stops => exact .fraction digits decimals (stops.append hset rfl)
  | string closed quotes => exact .string closed quotes
  | pair mem => exact .pair mem
  | @single c rest mem noPair =>
    refine .single mem (noPair.append hset ?_)
    have := hlong c
    simpa using this
  | @unknown c rest mark foreign noPair noLabel noLiteral =>
    refine .unknown mark foreign (noPair.append hset (hlong c))
      (fun hc => (noLabel hc).append hset rfl) fun hc => ?_
    -- More text may close the literal that a quote opens, however far behind.
    exact absurd ⟨rfl, by rw [hc]⟩ hopen

theorem lexeme_append {text : List Char} (hne : text ≠ [])
    (hopen : ¬((standard.lexeme text).kind = .unknown ∧ (standard.lexeme text).value = ['"']))
    (hset : Settled (standard.lexeme text).rest more) :
    standard.lexeme (text ++ more) = (standard.lexeme text).extend more := by
  have htext := standard.span_append_rest text
  have hlexeme := ((standard_lexeme hne).extend hopen hset).lexeme_eq
  rwa [Lexeme.extend, ← List.append_assoc, htext] at hlexeme

end Lexeme

/-! ## A source that grows at its end -/

namespace Tokenizer

variable {t u : Tokenizer} {more : List Char} {pre post : List Taken} {g : Taken}

/-- The tokenizer with more text behind the text that is left. -/
def extend (t : Tokenizer) (more : List Char) : Tokenizer :=
  { t with rest := t.rest ++ more }

theorem load_append (t : Tokenizer) (source more : String) :
    t.load (source ++ more) = (t.load source).extend more.toList := by
  simp [load, extend]

theorem next?_extend {token : Token} (hL : t.lexicon = .standard) (hn : t.next? = some (token, u))
    (hne : t.rest ≠ []) (hopen : ¬(Taken.mk t token).IsOpenQuote) (hset : Settled u.rest more) :
    (t.extend more).next? = some (token, u.extend more) := by
  obtain ⟨hf, rfl, rfl⟩ := next?_eq_some hn
  have hquote : ¬((Lexicon.standard.lexeme t.rest).kind = .unknown ∧
      (Lexicon.standard.lexeme t.rest).value = ['"']) := by
    rintro ⟨hk, hv⟩
    exact hopen ⟨by simp [nextToken, hL, hk], by simp [nextToken, hL, hv]⟩
  have hrest : Settled (Lexicon.standard.lexeme t.rest).rest more := by
    simpa [nextToken, hL] using hset
  have hlexeme := Lexeme.lexeme_append hne hquote hrest
  simp [next?, nextToken, extend, Lexeme.extend, Position.after, hf, hL, hlexeme]

/-- The tokens before a later one stay as they are when text is put behind the source, if none of
them is an open quote and what is left at the later one settles them. -/
theorem drain_extend (hL : t.lexicon = .standard) (hseq : t.sequence = pre ++ g :: post)
    (hopen : ∀ g' ∈ pre, ¬g'.IsOpenQuote) (hset : Settled g.before.rest more) :
    (t.extend more).drain.1 = pre.map Taken.token ++ (g.before.extend more).drain.1 := by
  induction pre generalizing t with
  | nil =>
    obtain ⟨-, -, hbefore, -⟩ := next?_of_sequence_eq_cons hseq
    rw [hbefore]
    rfl
  | cons g' pre ih =>
    obtain ⟨hquote, hopen⟩ := List.forall_mem_cons.1 hopen
    obtain ⟨u, hn, hbefore, hpost⟩ := next?_of_sequence_eq_cons hseq
    have hne : t.rest ≠ [] := by
      rw [← hbefore]
      exact mt (@eq_nil_of_sequence_iff t [] _ _ hseq).2 (by simp)
    -- What settles the later token settles this one as well: no less text is left here.
    have hlength : g.before.rest.length ≤ u.rest.length := by
      rw [← (run_of_sequence_eq hpost.symm).text_append_rest]
      simp
    have hstep := next?_extend hL hn hne (hbefore ▸ hquote) (hset.mono hlength)
    have hlexicon : u.lexicon = .standard := (lexicon_of_next? hn).trans hL
    rw [drain_of_next?_eq_some hstep, ih hlexicon hpost.symm hopen, List.map_cons, List.cons_append]

/-- Tokens that leave two characters of the text behind them stay as they are when more text is put
there. -/
theorem take_drain_extend (hL : t.lexicon = .standard) (hf : t.finished = false) {n : Nat}
    (hopen : ∀ g ∈ t.sequence.take n, ¬g.IsOpenQuote)
    (hrest : (Taken.text (t.sequence.take n)).length + 2 ≤ t.rest.length) :
    n < t.sequence.length ∧ (t.extend more).drain.1.take n = t.drain.1.take n := by
  have hlt : n < t.sequence.length := by
    by_contra hle
    rw [List.take_of_length_le (Nat.le_of_not_lt hle), text_sequence hf] at hrest
    omega
  have hseq : t.sequence = t.sequence.take n ++ t.sequence[n] :: t.sequence.drop (n + 1) := by
    rw [← List.drop_eq_getElem_cons hlt, List.take_append_drop]
  have htext := congrArg List.length (run_of_sequence_eq hseq).text_append_rest
  rw [List.length_append] at htext
  have hset : Settled t.sequence[n].before.rest more := .inl (by omega)
  have hlength : ((t.sequence.take n).map Taken.token).length = n := by
    simp [Nat.le_of_lt hlt]
  refine ⟨hlt, ?_⟩
  rw [drain_extend hL hseq hopen hset, List.take_left' hlength, drain_eq_sequence, List.map_take]

end Tokenizer

/-- What is put behind a source changes no token with at least two characters behind it, up to the
first quote that opens a literal without an end. -/
theorem tokenize_append_take (s t : String) (k : Nat)
    (hopen : ∀ token ∈ (tokenize s).take (k + 1), ¬(token.kind = .unknown ∧ token.value = "\""))
    (hrest : (Taken.text ((Tokenizer.load {} s).sequence.take (k + 1))).length + 2 ≤ s.length) :
    k < (tokenize s).length ∧
      (tokenize (s ++ t)).take (k + 1) = (tokenize s).take (k + 1) := by
  have hquotes : ∀ g ∈ (Tokenizer.load {} s).sequence.take (k + 1), ¬g.IsOpenQuote := by
    rw [tokenize_eq_sequence, ← List.map_take] at hopen
    exact fun g hg => hopen g.token (List.mem_map_of_mem hg)
  have hlength : (Tokenizer.load {} s).rest.length = s.length := String.length_toList
  rw [← hlength] at hrest
  obtain ⟨hlt, htake⟩ := @Tokenizer.take_drain_extend _ t.toList rfl rfl _ hquotes hrest
  constructor
  · rw [tokenize_eq_sequence, List.length_map]
    omega
  · rw [← Tokenizer.load_append] at htake
    exact htake

/-- Two characters follow the blanks. What is put behind them makes a comment mark of the slash, but
the comment does not reach back to the blanks. -/
theorem tokenize_append_take_of_blanks :
    let s := "\"q\" 1.a \tx/"
    let t := "/\""
    (∀ token ∈ (tokenize s).take 6, ¬(token.kind = .unknown ∧ token.value = "\"")) ∧
      (Taken.text ((Tokenizer.load {} s).sequence.take 6)).length + 2 ≤ s.length ∧
      5 < (tokenize s).length ∧ (tokenize (s ++ t)).take 6 = (tokenize s).take 6 :=
  ⟨by decide +kernel, by decide +kernel,
    tokenize_append_take _ _ 5 (by decide +kernel) (by decide +kernel)⟩

/-- One character is not enough: a digit makes a fraction of a point, and a slash makes blanks a part
of a comment. -/
example : (tokenize ("1." ++ "5")).take 1 ≠ (tokenize "1.").take 1 ∧
    (tokenize (" /" ++ "/")).take 1 ≠ (tokenize " /").take 1 := by decide +kernel

end Lexing
