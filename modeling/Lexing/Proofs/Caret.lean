import Lexing.Diagnostic.Report
import Lexing.Proofs.Acceptance

/-!
The caret of a report stands below the character that strict reading refuses. Three counts have to
agree: the position of the token, the line that is cut out of the source, and the blanks that are
left out of it. They agree because the character is neither a blank nor a carriage return nor a line
break, so that nothing that is left out of the line reaches it (`caret_below_offender`).

A literal with a line break before the character puts the position off, and a character that is white
space at the end of its line is left out of the excerpt; both are excluded.
-/

namespace Lexing

/-! ## The line of a position -/

theorem dropLines?_append_break (above text : List Char) :
    dropLines? (above.count '\n' + 1) (above ++ '\n' :: text) = some text := by
  induction above with
  | nil => simp [dropLines?_succ_cons]
  | cons c above ih =>
    rw [List.cons_append, dropLines?_succ_cons]
    by_cases hc : c = '\n'
    · rw [if_pos hc, hc, List.count_cons_self, ih]
    · rw [if_neg hc, List.count_cons_of_ne hc, ih]

theorem break_notMem_lastLine (text : List Char) : '\n' ∉ lastLine text := by
  intro h
  simpa using List.mem_rtakeWhile_imp h

/-- The last line of a text is all of it, or it stands behind a line break. -/
theorem eq_lastLine_or (text : List Char) :
    text = lastLine text ∨ ∃ above, text = above ++ '\n' :: lastLine text := by
  have hsplit : text.rdropWhile (· ≠ '\n') ++ lastLine text = text :=
    List.rdropWhile_append_rtakeWhile
  by_cases hne : text.rdropWhile (· ≠ '\n') = []
  · left
    rw [hne] at hsplit
    exact hsplit.symm
  · right
    have hlast : (text.rdropWhile (· ≠ '\n')).getLast hne = '\n' := by
      simpa using List.rdropWhile_last_not (· ≠ '\n') text hne
    refine ⟨(text.rdropWhile (· ≠ '\n')).dropLast, ?_⟩
    rw [← List.dropLast_append_getLast hne, hlast] at hsplit
    simpa using hsplit.symm

/-- The line of the source in which a text ends that stands before the rest of the source. -/
theorem lineExcerpt?_physical (before after : List Char) :
    lineExcerpt? (before ++ after) (Position.physical before).line =
      some (dropReturn (lastLine before ++ firstLine after)) := by
  have hfirst := firstLine_append (break_notMem_lastLine before) after
  rw [Position.physical, Nat.add_comm, lineExcerpt?, ← hfirst]
  rcases eq_lastLine_or before with hbefore | ⟨above, habove⟩
  · have hcount : before.count '\n' = 0 :=
      List.count_eq_zero.2 (hbefore ▸ break_notMem_lastLine before)
    rw [hcount, dropLines?_zero, ← hbefore, Option.map_some]
  · have hcount : before.count '\n' = above.count '\n' + 1 := by
      conv => lhs; rw [habove]
      simp [List.count_eq_zero.2 (break_notMem_lastLine before)]
    have hsource : before ++ after = above ++ '\n' :: (lastLine before ++ after) := by
      conv => lhs; rw [habove]
      simp
    rw [hcount, hsource, dropLines?_append_break, Option.map_some]

/-! ## What is left out of a line -/

theorem takeWhile_append_cons {p : Char → Bool} {c : Char} (hc : p c = false) (x y : List Char) :
    (x ++ c :: y).takeWhile p = x.takeWhile p := by
  induction x with
  | nil => simp [hc]
  | cons d x ih => by_cases hd : p d = true <;> simp [hd, ih]

theorem dropWhile_append_cons {p : Char → Bool} {c : Char} (hc : p c = false) (x y : List Char) :
    (x ++ c :: y).dropWhile p = x.dropWhile p ++ c :: y := by
  induction x with
  | nil => simp [hc]
  | cons d x ih => by_cases hd : p d = true <;> simp [hd, ih]

theorem dropReturn_append_cons {c : Char} (hc : c ≠ '\r') (x y : List Char) :
    dropReturn (x ++ c :: y) = x ++ c :: dropReturn y := by
  cases y with
  | nil => simp [dropReturn, hc]
  | cons d y =>
    have hlast : (x ++ c :: d :: y).getLast? = (d :: y).getLast? := by simp [List.getLast?_cons]
    rw [dropReturn, dropReturn, hlast]
    split
    · simp
    · rfl

theorem break_notMem_dropReturn (text : List Char) : '\n' ∉ dropReturn (firstLine text) := by
  have hfirst : '\n' ∉ firstLine text := fun h => by simpa using List.mem_takeWhile_imp h
  rw [dropReturn]
  split
  · exact fun h => hfirst ((List.dropLast_sublist _).subset h)
  · exact hfirst

/-- White space is left out only behind the last character that is none. -/
theorem dropTrailingSpace_append_cons {c : Char} {y : List Char}
    (h : ∃ e ∈ c :: y, Unicode.isWhiteSpace e = false) (x : List Char) :
    ∃ y', y' <+: y ∧ dropTrailingSpace (x ++ c :: y) = x ++ c :: y' := by
  have hne : (c :: y).rdropWhile Unicode.isWhiteSpace ≠ [] := by
    obtain ⟨e, he, hspace⟩ := h
    rw [ne_eq, List.rdropWhile_eq_nil_iff]
    intro hall
    exact Bool.eq_false_iff.1 hspace (hall e he)
  have hkeep : dropTrailingSpace (x ++ c :: y) = x ++ (c :: y).rdropWhile Unicode.isWhiteSpace := by
    have hempty : ¬((c :: y).reverse.dropWhile Unicode.isWhiteSpace).isEmpty = true := fun h =>
      hne (List.reverse_eq_nil_iff.2 (List.isEmpty_iff.1 h))
    rw [dropTrailingSpace, List.reverse_append, List.dropWhile_append, if_neg hempty,
      List.reverse_append, List.reverse_reverse, List.rdropWhile]
  have hprefix := List.rdropWhile_prefix Unicode.isWhiteSpace (c :: y)
  obtain ⟨e, y', hd⟩ := List.exists_cons_of_ne_nil hne
  rw [hd] at hprefix hkeep
  obtain ⟨rfl, hy⟩ := List.cons_prefix_cons.1 hprefix
  exact ⟨y', hy, hkeep⟩

/-! ## The last two lines of a report -/

/-- The text ends in these two lines, the lower one with its line break. -/
def EndsInLines (text upper lower : List Char) : Prop :=
  '\n' ∉ upper ∧ '\n' ∉ lower ∧ ∃ above, text = above ++ '\n' :: upper ++ '\n' :: lower ++ ['\n']

/-- The lower line points at a character of the upper one: the first bars of both lines stand in one
column, and the lower line ends in a caret, below the character. -/
structure PointsAt (lower upper : List Char) (c : Char) : Prop where
  bar_mem : '|' ∈ upper ∧ '|' ∈ lower
  idxOf_bar : upper.idxOf '|' = lower.idxOf '|'
  getLast?_eq : lower.getLast? = some '^'
  getElem?_eq : upper[lower.length - 1]? = some c

theorem pointsAt_layout {number : List Char} (h : '|' ∉ number) (x y : List Char) (c : Char) :
    PointsAt
      (List.replicate (number.length + 1) ' ' ++ ['|'] ++
        ' ' :: List.replicate x.length '-' ++ ['^'])
      (number ++ [' ', '|', ' '] ++ (x ++ c :: y)) c where
  bar_mem := by simp
  idxOf_bar := by simp [List.idxOf_append, h, Nat.add_comm]
  getLast?_eq := List.getLast?_concat
  getElem?_eq := by
    have hlen : (List.replicate (number.length + 1) ' ' ++ ['|'] ++
        ' ' :: List.replicate x.length '-' ++ ['^']).length - 1 =
          (number ++ [' ', '|', ' ']).length + x.length := by
      simp
      omega
    rw [hlen, List.getElem?_append_right (Nat.le_add_right _ _), Nat.add_sub_cancel_left,
      List.getElem?_append_right (Nat.le_refl _), Nat.sub_self]
    rfl

theorem Report.endsInLines_text (r : Report) (hexcerpt : '\n' ∉ r.excerpt.toList)
    (hcaret : '\n' ∉ r.caret.toList) :
    EndsInLines r.text.toList r.excerpt.toList r.caret.toList := by
  refine ⟨hexcerpt, hcaret, (r.heading ++ "\n" ++ r.file ++ "\n" ++ r.gutter).toList, ?_⟩
  simp [Report.text, String.join]

theorem notMem_toString {c : Char} (hc : c.isDigit = false) (n : Nat) :
    c ∉ (toString n).toList := by
  have hdigits : (toString n).toList = Nat.toDigits 10 n := by simp [toString, Nat.repr]
  intro h
  rw [hdigits] at h
  exact Bool.eq_false_iff.1 hc (Nat.isDigit_of_mem_toDigits (by decide) (by decide) h)

namespace Diagnostic

variable {d : Diagnostic} {source : String} {x y : List Char} {c : Char}

/-- The line of a physical position holds the character there, whatever stands around it. -/
theorem sourceLine_physical {before after : List Char} (hposition : d.position = .physical before)
    (hsource : before ++ c :: after = source.toList) (hbreak : c ≠ '\n') (hreturn : c ≠ '\r') :
    d.sourceLine source = lastLine before ++ c :: dropReturn (firstLine after) := by
  have hfirst : firstLine (c :: after) = c :: firstLine after := by simp [firstLine, hbreak]
  rw [sourceLine, hposition, ← hsource, lineExcerpt?_physical, Option.getD_some, hfirst,
    dropReturn_append_cons hreturn]

/-- The dashes before the caret cover the line up to the character, less the blanks left out. -/
theorem caretWidth_sub_one (hline : d.sourceLine source = x ++ c :: y)
    (hcolumn : d.position.column = 1 + x.length) (hc : isBlank c = false) :
    d.caretWidth source - 1 = (x.dropWhile isBlank).length := by
  have hlength : (x.takeWhile isBlank).length + (x.dropWhile isBlank).length = x.length := by
    rw [← List.length_append, List.takeWhile_append_dropWhile]
  rw [caretWidth, hline, hcolumn, runLength, takeWhile_append_cons hc]
  omega

/-- The caret stands below a character of the source line when the column is right, the character
is neither a blank nor part of the white space at the end of the line, and the limit is kept. -/
theorem render_pointsAt (hline : d.sourceLine source = x ++ c :: y)
    (hcolumn : d.position.column = 1 + x.length) (hbreak : '\n' ∉ x ++ c :: y)
    (hc : isBlank c = false) (hwidth : d.caretWidth source ≤ caretLimit)
    (hshown : ∃ e ∈ c :: y, Unicode.isWhiteSpace e = false) (file : String) :
    ∃ text upper lower, d.render source file = .ok text ∧ EndsInLines text.toList upper lower ∧
      PointsAt lower upper c := by
  obtain ⟨y', hy, hspace⟩ := dropTrailingSpace_append_cons hshown (x.dropWhile isBlank)
  let r : Report :=
    { heading := d.heading
      file := "-> " ++ file
      gutter := String.ofList d.gutter
      excerpt := toString d.position.line ++ " | " ++
        String.ofList (x.dropWhile isBlank ++ c :: y')
      caret := String.ofList
        (d.gutter ++ ' ' :: List.replicate (x.dropWhile isBlank).length '-' ++ ['^']) }
  have hrender : d.render source file = .ok r.text := by
    rw [render, report, if_neg (by omega), hline, dropWhile_append_cons hc, hspace,
      caretWidth_sub_one hline hcolumn hc]
    rfl
  have hexcerpt : r.excerpt.toList = (toString d.position.line).toList ++ [' ', '|', ' '] ++
      (x.dropWhile isBlank ++ c :: y') := by
    simp [r]
  have hcaret : r.caret.toList =
      List.replicate ((toString d.position.line).toList.length + 1) ' ' ++ ['|'] ++
        ' ' :: List.replicate (x.dropWhile isBlank).length '-' ++ ['^'] := by
    simp only [r, gutter, String.toList_ofList, String.length_toList]
  refine ⟨r.text, r.excerpt.toList, r.caret.toList, hrender, r.endsInLines_text ?_ ?_, ?_⟩
  · have hshort : x.dropWhile isBlank ++ c :: y' <:+: x ++ c :: y := by
      have hpre : x.dropWhile isBlank ++ c :: y' <+: x.dropWhile isBlank ++ c :: y :=
        (List.prefix_append_right_inj _).2 (List.cons_prefix_cons.2 ⟨rfl, hy⟩)
      rw [← dropWhile_append_cons hc x y] at hpre
      exact hpre.isInfix.trans (List.dropWhile_suffix _).isInfix
    rw [hexcerpt, List.mem_append, List.mem_append, not_or, not_or]
    exact ⟨⟨notMem_toString (by decide) _, by decide⟩, fun h => hbreak (hshort.subset h)⟩
  · rw [hcaret]
    simp
  · rw [hexcerpt, hcaret]
    exact pointsAt_layout (notMem_toString (by decide) _) _ _ _

end Diagnostic

/-! ## The character that strict reading refuses -/

theorem Tokenizer.rest_of_unknown {t : Tokenizer} (hL : t.lexicon = .standard)
    (hk : t.nextToken.1.kind = .unknown) :
    ∃ c after, t.rest = c :: after ∧ t.nextToken.1.value = String.singleton c ∧
      isMark c = true := by
  obtain ⟨c, after, hrest, hvalue, hstandard⟩ := standard_of_unknown hL hk
  refine ⟨c, after, hrest, hvalue, ?_⟩
  cases hstandard with
  | unknown mark => exact mark

/-- Where strict reading fails, the report of the error ends in two lines that point at the first
character which is no token: provided that no literal before it goes over a line break, that the
caret is in range, and that the character is no white space at the end of its line. -/
theorem caret_below_offender (source file : String) {d : Diagnostic}
    (h : tokenizeStrict source = .error d) :
    ∃ pre g post c after, (Tokenizer.load {} source).sequence = pre ++ g :: post ∧
      (∀ g' ∈ pre, g'.token.kind ≠ .unknown) ∧
      g.token = ⟨.unknown, String.singleton c, d.position⟩ ∧ d = .ofUnknown g.token ∧
      Taken.text pre ++ c :: after = source.toList ∧
      ((∀ g' ∈ pre, g'.token.kind = .string → '\n' ∉ g'.token.value.toList) →
        d.caretWidth source ≤ Diagnostic.caretLimit →
        (Unicode.isWhiteSpace c = false ∨
          ∃ e ∈ dropReturn (firstLine after), Unicode.isWhiteSpace e = false) →
        ∃ text upper lower, d.render source file = .ok text ∧
          EndsInLines text.toList upper lower ∧ PointsAt lower upper c) := by
  obtain ⟨pre, g, post, hseq, hunknown, rfl, hpre⟩ := Tokenizer.sequence_of_drainStrict_eq_error h
  have hmem : g ∈ (Tokenizer.load {} source).sequence := by simp [hseq]
  obtain ⟨_, hrun⟩ := Tokenizer.run_sequence (Tokenizer.load {} source)
  have htoken := hrun.token_eq hmem
  rw [htoken] at hunknown
  obtain ⟨c, after, hrest, hvalue, hmark⟩ :=
    Tokenizer.rest_of_unknown (Tokenizer.lexicon_of_mem_sequence hmem) hunknown
  have hsource : Taken.text pre ++ c :: after = source.toList :=
    hrest ▸ (Tokenizer.run_of_sequence_eq hseq).text_append_rest
  refine ⟨pre, g, post, c, after, hseq, hpre, ?_, rfl, hsource, fun hliteral hwidth hshown => ?_⟩
  · rw [htoken, ← hunknown, ← hvalue]
    rfl
  obtain ⟨hlayout, hbreak, -, -⟩ := isMark_iff.1 hmark
  have hreturn : c ≠ '\r' := by
    rintro rfl
    contradiction
  have hposition := (Tokenizer.reported_of_sequence_eq rfl rfl hseq).eq_iff.2 hliteral
  have hline := Diagnostic.sourceLine_physical (d := .ofUnknown g.token) hposition hsource hbreak
    hreturn
  have hcolumn : (Diagnostic.ofUnknown g.token).position.column =
      1 + (lastLine (Taken.text pre)).length := congrArg Position.column hposition
  have hnone : '\n' ∉ lastLine (Taken.text pre) ++ c :: dropReturn (firstLine after) := by
    rw [List.mem_append, List.mem_cons, not_or, not_or]
    exact ⟨break_notMem_lastLine _, Ne.symm hbreak, break_notMem_dropReturn after⟩
  have hvisible : ∃ e ∈ c :: dropReturn (firstLine after), Unicode.isWhiteSpace e = false := by
    rcases hshown with hc | ⟨e, he, hspace⟩
    · exact ⟨c, List.mem_cons_self .., hc⟩
    · exact ⟨e, List.mem_cons_of_mem _ he, hspace⟩
  exact Diagnostic.render_pointsAt hline hcolumn hnone (isBlank_eq_false hlayout) hwidth hvisible file

/-- Two blanks are left out before the character, and a space and a carriage return behind it. -/
theorem caret_below_offender_of_blanks :
    let source := "x\n \t-@ \r\n"
    let d : Diagnostic := ⟨.unrecognisedToken "@", ⟨2, 4⟩⟩
    tokenizeStrict source = .error d ∧
      (∀ token ∈ tokenize source, token.kind ≠ .string) ∧
      d.caretWidth source ≤ Diagnostic.caretLimit ∧ Unicode.isWhiteSpace '@' = false ∧
      ∃ text upper lower, d.render source "a.dsl" = .ok text ∧
        EndsInLines text.toList upper lower ∧ PointsAt lower upper '@' := by
  intro source d
  have hd : tokenizeStrict source = .error d := by decide +kernel
  have hkinds : ∀ token ∈ tokenize source, token.kind ≠ .string := by decide +kernel
  have hwidth : d.caretWidth source ≤ Diagnostic.caretLimit := by decide +kernel
  have hspace : Unicode.isWhiteSpace '@' = false := by decide
  obtain ⟨pre, g, post, c, after, hseq, -, htoken, hcause, -, hpoints⟩ :=
    caret_below_offender source "a.dsl" hd
  have hc : c = '@' := by
    have hmessage := congrArg Diagnostic.cause hcause
    rw [htoken] at hmessage
    simp only [d, Diagnostic.ofUnknown] at hmessage
    split at hmessage
    · contradiction
    · simpa using congrArg String.toList (Cause.unrecognisedToken.inj hmessage).symm
  subst hc
  refine ⟨hd, hkinds, hwidth, hspace, hpoints (fun g' hg' hk => ?_) hwidth (.inl hspace)⟩
  refine absurd hk (hkinds g'.token ?_)
  rw [tokenize_eq_sequence, hseq]
  exact List.mem_map_of_mem (by simp [hg'])

end Lexing
