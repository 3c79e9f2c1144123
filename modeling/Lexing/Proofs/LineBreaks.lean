import Lexing.Proofs.Grammar
import Lexing.Proofs.Positions
import Lexing.Proofs.Tiling
import Mathlib.Algebra.GroupWithZero.Nat
import Mathlib.Control.Monad.Basic
import Mathlib.Data.List.DropRight

/-!
Line breaks and positions. A tokenizer starts a new line at a newline token and at no other, so it
counts the line breaks of the source that newline tokens cover. In the standard lexicon the only
other tokens that cover line breaks are literals. Behind a literal that goes over a break the
position of a token is no longer the one that the break demands: its line is too small by the number
of breaks in the literals before it, and it is right exactly when there are none
(`position_eq_physical_iff`).
-/

namespace Lexing

/-- The part of the text behind its last line break. -/
def lastLine (text : List Char) : List Char :=
  text.rtakeWhile (· ≠ '\n')

theorem lastLine_append_break (text : List Char) : lastLine (text ++ ['\n']) = [] :=
  List.rtakeWhile_concat_neg _ _ _ (by decide)

theorem lastLine_append {w : List Char} (h : '\n' ∉ w) (text : List Char) :
    lastLine (text ++ w) = lastLine text ++ w := by
  have hw : ∀ c ∈ w.reverse, decide (c ≠ '\n') = true := by
    intro c hc
    have : c ≠ '\n' := fun heq => h (heq ▸ List.mem_reverse.1 hc)
    simpa using this
  rw [lastLine, List.rtakeWhile, List.reverse_append, List.takeWhile_append_of_pos hw,
    List.reverse_append, List.reverse_reverse, lastLine, List.rtakeWhile]

/-- The position of a character by the text before it: its line follows the line breaks, its column
the characters behind the last of them. -/
def Position.physical (before : List Char) : Position :=
  ⟨1 + before.count '\n', 1 + (lastLine before).length⟩

namespace Position

theorem line_physical_append (before w : List Char) :
    (physical (before ++ w)).line = (physical before).line + w.count '\n' := by
  simp [physical, Nat.add_assoc]

theorem physical_append_break (before : List Char) :
    physical (before ++ ['\n']) = (physical before).nextLine := by
  simp [physical, lastLine_append_break, nextLine, Nat.add_assoc]

theorem physical_append {w : List Char} (h : '\n' ∉ w) (before : List Char) :
    physical (before ++ w) = (physical before).right w.length := by
  simp [physical, lastLine_append h, List.count_eq_zero.2 h, right, Nat.add_assoc]

end Position

/-! ## The tokens that cover line breaks -/

/-- The number of line breaks inside a literal; none in other tokens. -/
def Token.literalBreaks (t : Token) : Nat :=
  if t.kind = .string then t.value.toList.count '\n' else 0

theorem Token.literalBreaks_eq_zero_iff {t : Token} :
    t.literalBreaks = 0 ↔ (t.kind = .string → '\n' ∉ t.value.toList) := by
  simp [literalBreaks, List.count_eq_zero]

theorem Lexicon.break_notMem_of_mem_symbols {s : List Char} (h : s ∈ longSymbols ++ shortSymbols) :
    '\n' ∉ s := by
  have hall : ∀ s ∈ longSymbols ++ shortSymbols, '\n' ∉ s := by decide
  exact hall s h

namespace Lexeme

variable {l : Lexeme}

theorem break_notMem_of_forall {p : Char → Bool} (hp : p '\n' = false) {w : List Char}
    (h : ∀ c ∈ w, p c = true) : '\n' ∉ w := fun hmem =>
  Bool.eq_false_iff.1 hp (h _ hmem)

theorem break_notMem_word {c : Char} {w : List Char} (alpha : c.isAlpha = true)
    (word : ∀ d ∈ w, isWordChar d = true) : '\n' ∉ c :: w :=
  break_notMem_of_forall (by decide) (forall_mem_word alpha word)

/-- A newline token is a line break, and of the other tokens only literals cover any. -/
theorem Standard.break_notMem (h : l.Standard) (hn : l.kind ≠ .newline) (hs : l.kind ≠ .string) :
    '\n' ∉ l.span := by
  cases h with
  | newline => exact absurd rfl hn
  | string => exact absurd rfl hs
  | comment blank line =>
    have hblank := break_notMem_of_forall (by decide) blank
    simp [hblank, line]
  | whitespace layout => exact break_notMem_of_forall (by decide) layout
  | keyword alpha word => exact break_notMem_word alpha word
  | name alpha word => exact break_notMem_word alpha word
  | label alpha word =>
    have hword := break_notMem_word alpha word
    simpa using hword
  | integer digits => exact break_notMem_of_forall (by decide) digits
  | fraction digits decimals =>
    have hdigits := break_notMem_of_forall (by decide) digits
    have hdecimals := break_notMem_of_forall (by decide) decimals
    rw [List.mem_append, not_or]
    exact ⟨hdigits, List.not_mem_cons_of_ne_of_not_mem (by decide) hdecimals⟩
  | pair mem => exact Lexicon.break_notMem_of_mem_symbols (List.mem_append_left _ mem)
  | single mem => exact Lexicon.break_notMem_of_mem_symbols (List.mem_append_right _ mem)
  | unknown mark =>
    have hc := (isMark_iff.1 mark).2.1
    simpa using hc.symm

theorem Standard.span_of_newline (h : l.Standard) (hk : l.kind = .newline) : l.span = ['\n'] := by
  cases h with
  | newline => rfl
  | _ => contradiction

theorem Standard.count_of_string (h : l.Standard) (hk : l.kind = .string) :
    l.span.count '\n' = l.value.count '\n' := by
  cases h with
  | string => simp
  | _ => contradiction

end Lexeme

/-! ## Positions along the sequence -/

namespace Taken

/-- The text that the tokens cover. -/
def text (gs : List Taken) : List Char :=
  (gs.map span).flatten

theorem text_cons (g : Taken) (gs : List Taken) : text (g :: gs) = g.span ++ text gs := rfl

theorem text_append (gs : List Taken) (g : Taken) : text (gs ++ [g]) = text gs ++ g.span := by
  simp [text]

/-- The number of line breaks inside literals among the tokens. -/
def literalBreaks (gs : List Taken) : Nat :=
  (gs.map fun g => g.token.literalBreaks).sum

theorem literalBreaks_append (gs : List Taken) (g : Taken) :
    literalBreaks (gs ++ [g]) = literalBreaks gs + g.token.literalBreaks := by
  simp [literalBreaks]

theorem literalBreaks_eq_zero_iff {gs : List Taken} :
    literalBreaks gs = 0 ↔ ∀ g ∈ gs, g.token.kind = .string → '\n' ∉ g.token.value.toList := by
  simp [literalBreaks, List.sum_eq_zero_iff_forall_eq_nat, Token.literalBreaks_eq_zero_iff]

/-- How the position that a token reports lies to the physical one, where `pre` are the tokens
before it: the line is too small by the number of breaks in literals, and nothing is wrong when
there are none. -/
structure Reported (pre : List Taken) (p : Position) : Prop where
  line_eq : p.line + literalBreaks pre = (Position.physical (text pre)).line
  eq_iff : p = .physical (text pre) ↔
    ∀ g ∈ pre, g.token.kind = .string → '\n' ∉ g.token.value.toList

end Taken

namespace Tokenizer

variable {t v : Tokenizer} {gs : List Taken}

/-- A token of the standard lexicon is a line break, or it covers only the breaks of a literal. -/
theorem breaks_nextToken (h : t.lexicon = .standard) :
    let g : Taken := ⟨t, t.nextToken.1⟩
    g.isNewline = true ∧ g.span = ['\n'] ∧ g.token.literalBreaks = 0 ∨
      g.isNewline = false ∧ g.span.count '\n' = g.token.literalBreaks := by
  intro g
  have hreads : g.Reads (Lexicon.standard.lexeme t.rest) := h ▸ t.reads_nextToken
  rw [Taken.isNewline, Token.literalBreaks, hreads.span, hreads.kind, hreads.value]
  by_cases hr : t.rest = []
  · rw [hr]
    exact .inr ⟨rfl, rfl⟩
  have hl := Lexeme.standard_lexeme hr
  by_cases hn : (Lexicon.standard.lexeme t.rest).kind = .newline
  · exact .inl ⟨by simp [hn], hl.span_of_newline hn, by simp [hn]⟩
  by_cases hs : (Lexicon.standard.lexeme t.rest).kind = .string
  · exact .inr ⟨by simp [hs], by simp [hs, hl.count_of_string hs]⟩
  · exact .inr ⟨by simp [hn], by simp [hs, List.count_eq_zero.2 (hl.break_notMem hn hs)]⟩

/-- Along a run of the standard lexicon the line falls behind by the breaks in literals, and the
position is the physical one as long as there are none. -/
theorem Run.position_physical (h : Run t gs v) (ht : t.position = .start)
    (hgs : ∀ g ∈ gs, g.before.lexicon = .standard) :
    v.position.line + Taken.literalBreaks gs = (Position.physical (Taken.text gs)).line ∧
      (Taken.literalBreaks gs = 0 → v.position = .physical (Taken.text gs)) := by
  induction h with
  | start =>
    rw [ht]
    exact ⟨rfl, fun _ => rfl⟩
  | silent _ same ih =>
    rw [same.position]
    exact ih hgs
  | @token gs u v _ same ih =>
    obtain ⟨hgs, hu⟩ := List.forall_mem_append.1 hgs
    obtain ⟨hline, hpos⟩ := ih hgs
    have hstandard : u.lexicon = .standard := hu ⟨u, u.nextToken.1⟩ (List.mem_singleton.2 rfl)
    rw [same.position, position_nextToken, Taken.text_append, Taken.literalBreaks_append,
      Position.line_physical_append, ← hline]
    rcases breaks_nextToken hstandard with ⟨hn, hspan, hzero⟩ | ⟨hn, hcount⟩
    · rw [if_pos hn, hspan, hzero, Position.physical_append_break]
      refine ⟨?_, fun h => by rw [hpos h]⟩
      simp [Position.nextLine]
      omega
    · rw [hn, if_neg (by decide), hcount]
      refine ⟨?_, fun h => ?_⟩
      · simp
        omega
      · have hnone := List.count_eq_zero.1 (hcount.trans (Nat.eq_zero_of_add_eq_zero_left h))
        rw [Position.physical_append hnone, hpos (Nat.eq_zero_of_add_eq_zero_right h)]

/-- The text before a token of the sequence is what the tokens before it cover. -/
theorem Run.text_append_rest (h : Run t gs v) : Taken.text gs ++ v.rest = t.rest := by
  induction h with
  | start => rfl
  | silent _ same ih => rw [same.rest, ih]
  | @token gs u v _ same ih =>
    have hspan := span_append_rest_nextToken u u.nextToken.1
    rw [same.rest, Taken.text_append, List.append_assoc, hspan, ih]

/-- The tokens of the sequence cover all the text that was left. -/
theorem text_sequence (h : t.finished = false) : Taken.text t.sequence = t.rest := by
  obtain ⟨pre, g, hseq, hend⟩ := exists_sequence_eq_concat h
  have htext := (run_of_sequence_eq hseq).text_append_rest
  rw [hend, List.append_nil] at htext
  rw [hseq, Taken.text_append, htext, Taken.span, hend, Lexicon.span_lexeme_nil, List.append_nil]

theorem reported_of_sequence_eq (ht : t.position = .start) (hL : t.lexicon = .standard)
    {pre post : List Taken} {g : Taken} (h : t.sequence = pre ++ g :: post) :
    Taken.Reported pre g.token.position := by
  have hmem : ∀ g' ∈ pre, g' ∈ t.sequence := fun g' hg' => by simp [h, hg']
  obtain ⟨hline, hpos⟩ := (run_of_sequence_eq h).position_physical ht fun g' hg' => by
    rw [lexicon_of_mem_sequence (hmem g' hg'), hL]
  obtain ⟨v, hrun⟩ := run_sequence t
  rw [hrun.token_position (h ▸ List.mem_append_right _ (List.mem_cons_self ..))]
  refine ⟨hline, ?_⟩
  rw [← Taken.literalBreaks_eq_zero_iff]
  refine ⟨fun heq => ?_, hpos⟩
  rw [← heq] at hline
  omega

end Tokenizer

/-- The position of a token, the end of input included, is the physical position of its first
character if and only if no literal before it goes over a line break; in general its line is less
than the physical one by the number of breaks in the literals before it. The position of the error
that strict reading ends with is that of a token, so that the same holds of it. -/
theorem position_eq_physical_iff (source : String) :
    tokenize source = (Tokenizer.load {} source).sequence.map Taken.token ∧
      (∀ pre g post, (Tokenizer.load {} source).sequence = pre ++ g :: post →
        Taken.text pre ++ g.before.rest = source.toList ∧ Taken.Reported pre g.token.position) ∧
      ∀ d, tokenizeStrict source = .error d →
        ∃ pre g post, (Tokenizer.load {} source).sequence = pre ++ g :: post ∧
          g.token.kind = .unknown ∧ d.position = g.token.position ∧
          Taken.Reported pre d.position := by
  refine ⟨tokenize_eq_sequence source, fun pre g post h => ⟨?_, ?_⟩, fun d hd => ?_⟩
  · exact (Tokenizer.run_of_sequence_eq h).text_append_rest
  · exact Tokenizer.reported_of_sequence_eq rfl rfl h
  · obtain ⟨pre, g, post, hseq, hunknown, rfl, -⟩ := Tokenizer.sequence_of_drainStrict_eq_error hd
    exact ⟨pre, g, post, hseq, hunknown, rfl, Tokenizer.reported_of_sequence_eq rfl rfl hseq⟩

/-- Behind a literal that goes over a line break the error is reported on the line above its own. -/
theorem position_eq_physical_iff_of_literal :
    let source := "x \"1\n2\"\n @"
    tokenizeStrict source = .error ⟨.unrecognisedToken "@", ⟨2, 2⟩⟩ ∧
      ∃ pre g post, (Tokenizer.load {} source).sequence = pre ++ g :: post ∧
        g.token.position = ⟨2, 2⟩ ∧ Taken.text pre ++ g.before.rest = source.toList ∧
        Taken.Reported pre g.token.position := by
  intro source
  have hd : tokenizeStrict source = .error ⟨.unrecognisedToken "@", ⟨2, 2⟩⟩ := by decide +kernel
  obtain ⟨-, hpos, herror⟩ := position_eq_physical_iff source
  obtain ⟨pre, g, post, hseq, -, hp, -⟩ := herror _ hd
  exact ⟨hd, pre, g, post, hseq, hp.symm, hpos pre g post hseq⟩

end Lexing
