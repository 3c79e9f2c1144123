import Lexing.Proofs.Caret
import Lexing.Proofs.Progress

/-!
The range of the caret. A caret can be drawn up to a limit, and the column that it demands is counted
along the tokens: it does not start anew at a break inside of a literal, and the line that is cut out
of the source may be another one than that of the character. Still no position runs ahead of the text.
What a line or a column gains over the start is made up by text that is covered, so both stay within
the length of the source, and a source no longer than the limit has a report. Beyond the limit every
length has a source without one (`report_in_range`).
-/

namespace Lexing

namespace Tokenizer

variable {t v : Tokenizer}

/-- Neither the line nor the column gains more than the text loses. -/
theorem position_nextToken_add_length_le (t : Tokenizer) :
    t.nextToken.2.position.line + t.nextToken.2.rest.length ≤ t.position.line + t.rest.length ∧
      t.nextToken.2.position.column + t.nextToken.2.rest.length ≤
        t.position.column + t.rest.length := by
  have hlength := congrArg List.length (span_append_rest_nextToken t t.nextToken.1)
  rw [List.length_append] at hlength
  rw [position_nextToken]
  split
  · rename_i hnewline
    have hkind : t.nextToken.1.kind = .newline := by simpa [Taken.isNewline] using hnewline
    have hne : t.rest ≠ [] := mt kind_nextToken_iff.2 (by simp [hkind])
    have hpos := List.length_pos_iff.2 (t.lexicon.span_lexeme_ne_nil hne)
    simp only [Taken.span, Position.nextLine] at hlength ⊢
    omega
  · simp only [Position.line_right, Position.column_right]
    omega

theorem Run.position_add_length_le {gs : List Taken} (h : Run t gs v) :
    v.position.line + v.rest.length ≤ t.position.line + t.rest.length ∧
      v.position.column + v.rest.length ≤ t.position.column + t.rest.length := by
  induction h with
  | start => exact ⟨Nat.le_refl _, Nat.le_refl _⟩
  | silent _ same ih => rwa [same.position, same.rest]
  | token _ same ih =>
    rw [same.position, same.rest]
    have hstep := position_nextToken_add_length_le
    exact ⟨Nat.le_trans (hstep _).1 ih.1, Nat.le_trans (hstep _).2 ih.2⟩

end Tokenizer

/-! ## A report in range -/

/-- A source is refused at a line and a column that are no greater than its length. -/
theorem position_le_length {source : String} {d : Diagnostic} (h : tokenizeStrict source = .error d) :
    d.position.line ≤ source.length ∧ d.position.column ≤ source.length := by
  obtain ⟨pre, g, post, hseq, hunknown, rfl, -⟩ := Tokenizer.sequence_of_drainStrict_eq_error h
  have hmem : g ∈ (Tokenizer.load {} source).sequence := by simp [hseq]
  have htoken := Tokenizer.token_of_mem_sequence hmem
  have hne : g.before.rest ≠ [] :=
    mt Tokenizer.kind_nextToken_iff.2 (by simp [← htoken, hunknown])
  have hpos := List.length_pos_iff.2 hne
  obtain ⟨hline, hcolumn⟩ := (Tokenizer.run_of_sequence_eq hseq).position_add_length_le
  have hposition : (Diagnostic.ofUnknown g.token).position = g.before.position := by
    rw [htoken]
    rfl
  simp only [Tokenizer.load, Position.start, String.length_toList] at hline hcolumn
  rw [hposition]
  omega

namespace Diagnostic

variable {d : Diagnostic} {source : String}

theorem caretWidth_le (d : Diagnostic) (source : String) :
    d.caretWidth source ≤ max 1 d.position.column := by
  rw [caretWidth]
  omega

/-- The bar is as far to the right as the line number has digits, and two columns further. -/
theorem length_gutter_le {k : Nat} (hk : 0 < k) (h : d.position.line < 10 ^ k) :
    d.gutter.length ≤ k + 2 := by
  have hdigits := (Nat.length_toDigits_le_iff (by decide) hk).2 h
  have hnumber : (toString d.position.line).length = (Nat.toDigits 10 d.position.line).length := by
    rw [Nat.toString_eq_ofList_toDigits, String.length_ofList]
  rw [gutter, List.length_append, List.length_replicate, List.length_singleton, hnumber]
  omega

end Diagnostic

/-! ## A caret out of range -/

/-- A number of `n` digits with a mark behind it. -/
def numberAndMark (n : Nat) : String :=
  String.ofList (List.replicate n '1' ++ ['@'])

section NumberAndMark

variable {n : Nat}

theorem toList_numberAndMark (n : Nat) :
    (numberAndMark n).toList = List.replicate n '1' ++ ['@'] :=
  String.toList_ofList

theorem forall_mem_replicate_isDigit (n : Nat) :
    ∀ d ∈ List.replicate n '1', d.isDigit = true := by
  intro d hd
  rw [List.eq_of_mem_replicate hd]
  rfl

/-- The mark is refused, in the column behind the digits. -/
theorem tokenizeStrict_numberAndMark (hn : 0 < n) :
    tokenizeStrict (numberAndMark n) = .error ⟨.unrecognisedToken "@", ⟨1, 1 + n⟩⟩ := by
  obtain ⟨m, rfl⟩ : ∃ m, n = m + 1 := ⟨n - 1, by omega⟩
  have digits := forall_mem_replicate_isDigit (m + 1)
  rw [List.replicate_succ] at digits
  have number : (Lexeme.mk .number _ _ ['@']).Standard :=
    .integer digits (stops_cons_iff.2 rfl) fun d hd => by simp at hd
  have mark : (Lexeme.mk .unknown ['@'] ['@'] []).Standard :=
    .unknown (by decide) (by decide) (stops_nil _) (fun _ => stops_nil _)
      fun h => absurd h (by decide)
  have hnumber := Tokenizer.next?_of_standard (t := .load {} (numberAndMark (m + 1))) rfl rfl number
    (toList_numberAndMark _)
  have hmark := Tokenizer.next?_of_standard
    (t := { rest := ['@'], position := ⟨1, 1 + (m + 1)⟩ }) rfl rfl mark rfl
  have hafter : Position.start.after ⟨.number, '1' :: List.replicate m '1',
      '1' :: List.replicate m '1', ['@']⟩ = ⟨1, 1 + (m + 1)⟩ := by
    simp [Position.after, Position.start, Position.right]
  rw [tokenizeStrict, Lexicon.tokenizeStrict, Tokenizer.drainStrict_of_next?_eq_some hnumber,
    if_neg (by simp)]
  simp only [Tokenizer.load]
  rw [hafter, Tokenizer.drainStrict_of_next?_eq_some hmark]
  rfl

/-- No blank is left out of the line, so that the caret is as wide as the column demands. -/
theorem caretWidth_numberAndMark (cause : Cause) :
    (Diagnostic.mk cause ⟨1, 1 + n⟩).caretWidth (numberAndMark n) = 1 + n := by
  have hbreak := Lexeme.break_notMem_of_forall (by decide) (forall_mem_replicate_isDigit n)
  have hposition : (Diagnostic.mk cause ⟨1, 1 + n⟩).position =
      .physical ([] ++ List.replicate n '1') := by
    rw [Position.physical_append hbreak, List.length_replicate]
    rfl
  have hline := Diagnostic.sourceLine_physical hposition (toList_numberAndMark n).symm
    (by decide) (by decide)
  rw [lastLine_append hbreak] at hline
  rw [Diagnostic.caretWidth, hline, runLength, takeWhile_append_cons (by decide)]
  simp [lastLine, List.rtakeWhile, isBlank]

end NumberAndMark

/-- A source that strict reading refuses has a report if it is no longer than the limit of the caret,
and then nothing else in the report is wider either. Above the limit there is a source of every length
that is refused without a report. -/
theorem report_in_range (file : String) :
    (∀ source d, source.length ≤ 65535 → tokenizeStrict source = .error d →
      d.gutter.length ≤ 65535 ∧ ∃ text, d.render source file = .ok text) ∧
    ∀ n, 65535 < n → ∃ source d, source.length = n ∧ tokenizeStrict source = .error d ∧
      d.render source file = .error (.caretOutOfRange n) := by
  refine ⟨fun source d hlength hd => ?_, fun n hn => ?_⟩
  · obtain ⟨hline, hcolumn⟩ := position_le_length hd
    have hgutter := Diagnostic.length_gutter_le (d := d) (k := 5) (by decide) (by omega)
    have hwidth := d.caretWidth_le source
    refine ⟨by omega, Diagnostic.exists_render_iff.2 ?_⟩
    rw [Diagnostic.caretLimit]
    omega
  · obtain ⟨m, rfl⟩ : ∃ m, n = 1 + m := ⟨n - 1, by omega⟩
    have hm : 0 < m := by omega
    refine ⟨numberAndMark m, _, ?_, tokenizeStrict_numberAndMark hm, ?_⟩
    · rw [numberAndMark, String.length_ofList, List.length_append, List.length_replicate,
        List.length_singleton, Nat.add_comm]
    · have hwidth := caretWidth_numberAndMark (n := m) (.unrecognisedToken "@")
      rw [Diagnostic.render_of_caretLimit_lt (hwidth.symm ▸ hn), hwidth]

/-- Behind a literal that goes over a line break the caret stands further to the right than the line
of the report is long, and a source that is too long by one character has no report. -/
theorem report_in_range_of_literal :
    let source := "x \"1\n2\"  @"
    let d : Diagnostic := ⟨.unrecognisedToken "@", ⟨1, 10⟩⟩
    source.length ≤ 65535 ∧ tokenizeStrict source = .error d ∧
      d.sourceLine source = "x \"1".toList ∧ d.gutter.length ≤ 65535 ∧
      (∃ text, d.render source "a.dsl" = .ok text) ∧
      ∃ long d', long.length = 65536 ∧ tokenizeStrict long = .error d' ∧
        d'.render long "a.dsl" = .error (.caretOutOfRange 65536) := by
  intro source d
  have hlength : source.length ≤ 65535 := by decide
  have hd : tokenizeStrict source = .error d := by decide +kernel
  obtain ⟨hshort, hlong⟩ := report_in_range "a.dsl"
  obtain ⟨hgutter, hreport⟩ := hshort source d hlength hd
  exact ⟨hlength, hd, by decide +kernel, hgutter, hreport, hlong 65536 (by decide)⟩

end Lexing
