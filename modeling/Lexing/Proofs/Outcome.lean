import Lexing.Command.Outcome
import Lexing.Proofs.Acceptance

/-!
The outcome of the command, whatever the file holds and whatever the options are. It is of one of
three forms (`Yields`): all tokens are printed, or a source is refused with the report of its first
unknown token, or a file cannot be read. In the first case nothing is printed as an error, in the
others nothing is printed but the error. Leaving out trivia changes no more than the output of the
first form, and strictness decides only between the first form and the second.
-/

namespace Lexing

namespace Command

variable {o : Options} {content : Except ReadError String} {r : Outcome}

/-- With trivia left out, the tokens that are no whitespace and no comments are printed. -/
theorem visible_eq (skipTrivia : Bool) (tokens : List Token) :
    visible skipTrivia tokens =
      if skipTrivia then tokens.filter fun t => t.kind ≠ .whitespace ∧ t.kind ≠ .comment
      else tokens := by
  cases skipTrivia with
  | false => exact List.filter_eq_self.2 fun _ _ => rfl
  | true =>
    refine List.filter_congr fun t _ => ?_
    cases t.kind <;> simp [TokenKind.isTrivia]

/-- What is printed of a token: its position, its kind and, unless it is empty, its value. -/
theorem toLine_eq (t : Token) :
    t.toLine =
      "Line: " ++ toString t.position.line ++ ", Column: " ++ toString t.position.column ++
        ", Type: " ++ t.kind.name ++
        (if t.value = "" then "" else ", Value: '" ++ t.value ++ "'") ++ "\n" := by
  simp [Token.toLine, Token.valueText, toString, Position.toString, String.append_assoc]

/-! ## Scans -/

theorem Options.result_scan_eq_ok_iff {source : String} {tokens : List Token} :
    (o.scan source).result = .ok tokens ↔
      tokens = tokenize source ∧ (o.strict = false ∨ ∀ token ∈ tokens, token.kind ≠ .unknown) := by
  rw [result_scan]
  cases o.strict with
  | true => simp [tokenizeStrict_eq_ok_iff]
  | false => simp [eq_comm]

theorem Options.result_scan_eq_error_iff {source : String} {d : Diagnostic} :
    (o.scan source).result = .error d ↔ o.strict = true ∧ tokenizeStrict source = .error d := by
  rw [result_scan]
  cases o.strict with
  | true => simp
  | false => simp

/-- What a source comes to: its tokens are printed, or a report of why it is refused. -/
theorem Options.outcomeOf_cases {source : String} (h : o.outcomeOf source = .ok r) :
    (∃ tokens, (o.scan source).result = .ok tokens ∧
      r = { status := 0
            output := Token.listing (visible o.skipTrivia tokens)
            log := o.log (.ok source) }) ∨
    ∃ d text, (o.scan source).result = .error d ∧ d.render source o.file = .ok text ∧
      r = { status := 1, errors := text, log := o.log (.ok source) } := by
  rw [outcomeOf] at h
  cases hresult : (o.scan source).result with
  | ok tokens =>
    rw [hresult] at h
    exact .inl ⟨tokens, rfl, (Except.ok.inj h).symm⟩
  | error d =>
    rw [hresult] at h
    change Except.map _ (d.render source o.file) = .ok r at h
    cases hrender : d.render source o.file with
    | ok text =>
      rw [hrender] at h
      exact .inr ⟨d, text, rfl, hrender, (Except.ok.inj h).symm⟩
    | error e =>
      rw [hrender] at h
      contradiction

/-! ## Forms of an outcome -/

/-- The forms of an outcome, for what reading the file has given. -/
inductive Yields (o : Options) : Except ReadError String → Outcome → Prop
  /-- All tokens are printed. -/
  | printed {source r}
      (accepted : o.strict = false ∨ ∀ token ∈ tokenize source, token.kind ≠ .unknown)
      (status : r.status = 0) (errors : r.errors = "")
      (output : r.output = Token.listing (visible o.skipTrivia (tokenize source))) :
      Yields o (.ok source) r
  /-- The source is refused at its first unknown token. -/
  | refused {source r d} (strict : o.strict = true) (cause : tokenizeStrict source = .error d)
      (status : r.status = 1) (output : r.output = "")
      (errors : d.render source o.file = .ok r.errors) : Yields o (.ok source) r
  /-- The file cannot be read. -/
  | unreadable {e r} (status : r.status = 1) (output : r.output = "")
      (errors : r.errors =
        "Error: failed to read " ++ quoted o.file ++ ": " ++ e.message ++ "\n") :
      Yields o (.error e) r

theorem yields_of_outcomeOf {source : String} (h : o.outcomeOf source = .ok r) :
    Yields o (.ok source) r := by
  obtain ⟨tokens, hresult, rfl⟩ | ⟨d, text, hresult, hrender, rfl⟩ := Options.outcomeOf_cases h
  · obtain ⟨rfl, accepted⟩ := Options.result_scan_eq_ok_iff.1 hresult
    exact .printed accepted rfl rfl rfl
  · obtain ⟨strict, cause⟩ := Options.result_scan_eq_error_iff.1 hresult
    exact .refused strict cause rfl rfl hrender

/-- Every outcome is of one of the forms. -/
theorem yields_of_outcome (h : o.outcome content = .ok r) : Yields o content r := by
  cases content with
  | ok source => exact yields_of_outcomeOf h
  | error e =>
    obtain rfl := Except.ok.inj h
    refine .unreadable rfl rfl ?_
    rw [← String.toList_inj]
    simp [Cause.message_unreadable]

/-- There is an outcome, provided that a report that is asked for can be laid out. -/
theorem exists_outcome
    (hwidth : ∀ source d, content = .ok source → o.strict = true →
      tokenizeStrict source = .error d → d.caretWidth source ≤ Diagnostic.caretLimit) :
    ∃ r, o.outcome content = .ok r := by
  cases content with
  | error e => exact ⟨_, rfl⟩
  | ok source =>
    rw [Options.outcome, Options.outcomeOf]
    cases hresult : (o.scan source).result with
    | ok tokens => exact ⟨_, rfl⟩
    | error d =>
      obtain ⟨hs, hd⟩ := Options.result_scan_eq_error_iff.1 hresult
      obtain ⟨text, htext⟩ : ∃ text, d.render source o.file = .ok text :=
        Diagnostic.exists_render_iff.2 (hwidth source d rfl hs hd)
      exact ⟨_, congrArg (Except.map _) htext⟩

/-! ## What the options decide -/

/-- The file can be read and, if the options are strict, all its tokens are known. -/
def Options.Accepts (o : Options) (content : Except ReadError String) : Prop :=
  ∃ source, content = .ok source ∧
    (o.strict = false ∨ ∀ token ∈ tokenize source, token.kind ≠ .unknown)

namespace Yields

theorem accepts_iff (h : Yields o content r) :
    r.status = 0 ∧ r.errors = "" ↔ o.Accepts content := by
  cases h with
  | printed accepted status errors => exact iff_of_true ⟨status, errors⟩ ⟨_, rfl, accepted⟩
  | @refused source _ _ strict cause status =>
    refine iff_of_false (by simp [status]) ?_
    rintro ⟨_, heq, accepted⟩
    obtain rfl := Except.ok.inj heq
    rcases accepted with lenient | known
    · simp [strict] at lenient
    · have hok := tokenizeStrict_eq_ok_iff.2 ⟨rfl, known⟩
      rw [cause] at hok
      contradiction
  | unreadable status =>
    refine iff_of_false (by simp [status]) ?_
    rintro ⟨_, heq, -⟩
    contradiction

theorem output_eq (h : Yields o content r) (ha : o.Accepts content) {source : String}
    (hs : content = .ok source) :
    r.output = Token.listing (visible o.skipTrivia (tokenize source)) := by
  have hstatus := (h.accepts_iff.2 ha).1
  cases h with
  | printed _ _ _ output =>
    obtain rfl := Except.ok.inj hs
    exact output
  | refused _ _ status | unreadable status => simp [status] at hstatus

/-- When the command fails, nothing is printed but the error. -/
theorem failure (h : Yields o content r) (ha : ¬o.Accepts content) :
    r.status = 1 ∧ r.output = "" ∧
      ((∃ source d, content = .ok source ∧ tokenizeStrict source = .error d ∧
          d.render source o.file = .ok r.errors) ∨
        ∃ e, content = .error e ∧
          r.errors = "Error: failed to read " ++ quoted o.file ++ ": " ++ e.message ++ "\n") := by
  cases h with
  | printed accepted => exact absurd ⟨_, rfl, accepted⟩ ha
  | refused _ cause status output errors =>
    exact ⟨status, output, .inl ⟨_, _, rfl, cause, errors⟩⟩
  | unreadable status output errors => exact ⟨status, output, .inr ⟨_, rfl, errors⟩⟩

/-- Whether they are strict or not, options that agree otherwise print the same when they print. -/
theorem output_eq_of_status {b : Bool} {r' : Outcome} (h : Yields o content r)
    (h' : Yields { o with strict := b } content r') (hr : r.status = 0) (hr' : r'.status = 0) :
    r'.output = r.output := by
  cases h with
  | printed _ _ _ output =>
    cases h' with
    | printed _ _ _ output' => rw [output, output']
    | refused _ _ status => simp [status] at hr'
  | refused _ _ status | unreadable status => simp [status] at hr

end Yields

/-- The command prints the tokens of a source that its options accept. -/
theorem exists_outcome_of_accepts {o : Options} {source : String}
    (h : o.strict = false ∨ ∀ token ∈ tokenize source, token.kind ≠ .unknown) :
    ∃ r, o.outcome (.ok source) = .ok r ∧ r.status = 0 ∧
      r.output = Token.listing (visible o.skipTrivia (tokenize source)) := by
  have haccepts : o.Accepts (.ok source) := ⟨source, rfl, h⟩
  obtain ⟨r, hr⟩ : ∃ r, o.outcome (.ok source) = .ok r := by
    refine exists_outcome fun source' d hs hstrict hd => ?_
    obtain rfl := Except.ok.inj hs
    rcases h with hlenient | hknown
    · simp [hstrict] at hlenient
    · rw [tokenizeStrict_eq_ok_iff.2 ⟨rfl, hknown⟩] at hd
      contradiction
  have hyields := yields_of_outcome hr
  exact ⟨r, hr, (hyields.accepts_iff.2 haccepts).1, hyields.output_eq haccepts rfl⟩

theorem outcome_skipTrivia (o : Options) (content : Except ReadError String) (b : Bool) :
    (Options.outcome { o with skipTrivia := b } content).map (fun r => (r.status, r.errors)) =
      (o.outcome content).map fun r => (r.status, r.errors) := by
  cases content with
  | error e => rfl
  | ok source =>
    simp only [Options.outcome, Options.outcomeOf, Options.result_scan]
    cases if o.strict = true then tokenizeStrict source else .ok (tokenize source) with
    | ok tokens => rfl
    | error d => rfl

/-- The command prints all tokens of a file, or it prints none and says why. With the log off, it
ends with status 0 and no error exactly when the file can be read and, if it is to be strict, has no
unknown token. Then the output has a line for each token, in order, save for whitespace and comments
if trivia is left out. Otherwise it ends with status 1 and no output, and its error is the report of
the first unknown token or says why the file cannot be read. Leaving out trivia changes neither
status nor error, and strictness changes no output of a command that succeeds. -/
theorem outcome_prints_all_or_nothing (o : Options) (read : String → Except ReadError String)
    (hwidth : ∀ source d, read o.file = .ok source → o.strict = true →
      tokenizeStrict source = .error d → d.caretWidth source ≤ Diagnostic.caretLimit) :
    ∃ r, (Request.tokenize o).outcome read = .ok r ∧
      ((Request.tokenize o).threshold (some .off)).lines r.log = [] ∧
      (r.status = 0 ∧ r.errors = "" ↔ o.Accepts (read o.file)) ∧
      (o.Accepts (read o.file) → ∀ source, read o.file = .ok source →
        let tokens :=
          if o.skipTrivia then
            (tokenize source).filter fun t => t.kind ≠ .whitespace ∧ t.kind ≠ .comment
          else tokenize source
        r.output = String.join (tokens.map fun t =>
          "Line: " ++ toString t.position.line ++ ", Column: " ++ toString t.position.column ++
            ", Type: " ++ t.kind.name ++
            (if t.value = "" then "" else ", Value: '" ++ t.value ++ "'") ++ "\n")) ∧
      (¬o.Accepts (read o.file) → r.status = 1 ∧ r.output = "" ∧
        ((∃ source pre token post, read o.file = .ok source ∧
            tokenize source = pre ++ token :: post ∧ (∀ t ∈ pre, t.kind ≠ .unknown) ∧
            token.kind = .unknown ∧
            (Diagnostic.ofUnknown token).render source o.file = .ok r.errors) ∨
          ∃ e, read o.file = .error e ∧
            r.errors = "Error: failed to read " ++ quoted o.file ++ ": " ++ e.message ++ "\n")) ∧
      (∀ b, ((Request.tokenize { o with skipTrivia := b }).outcome read).map
        (fun r' => (r'.status, r'.errors)) = .ok (r.status, r.errors)) ∧
      ∀ b r', (Request.tokenize { o with strict := b }).outcome read = .ok r' →
        r.status = 0 → r'.status = 0 → r'.output = r.output := by
  obtain ⟨r, hr⟩ := exists_outcome hwidth
  have h := yields_of_outcome hr
  refine ⟨r, hr, ?_, h.accepts_iff, fun ha source hs => ?_, fun ha => ?_, fun b => ?_,
    fun b r' hr' => h.output_eq_of_status (yields_of_outcome hr')⟩
  · exact List.map_eq_nil_iff.2 (List.filter_eq_nil_iff.2 fun _ _ => Bool.false_ne_true)
  · rw [h.output_eq ha hs, visible_eq, Token.listing]
    exact congrArg String.join (List.map_congr_left fun t _ => toLine_eq t)
  · obtain ⟨hstatus, houtput, hfailure⟩ := h.failure ha
    refine ⟨hstatus, houtput, hfailure.imp_left ?_⟩
    rintro ⟨source, d, hs, hd, hrender⟩
    obtain ⟨pre, token, post, htokens, hpre, hk, rfl⟩ := tokenizeStrict_eq_error_iff.1 hd
    exact ⟨source, pre, token, post, hs, htokens, hpre, hk, hrender⟩
  · have hsame := outcome_skipTrivia o (read o.file) b
    rw [hr] at hsame
    exact hsame

/-- A file with a token of each kind, read by strict options and by lenient ones, and a file that is
missing. -/
theorem outcome_prints_all_or_nothing_of_mark :
    let o : Options := { file := "a.dsl", strict := true, skipTrivia := true }
    let lenient : Options := { o with strict := false }
    let source := "IF x1 = 2.5 \"a\n\" @ // y\n"
    let read : String → Except ReadError String := fun _ => .ok source
    (∀ source' d, read o.file = .ok source' → o.strict = true →
      tokenizeStrict source' = .error d → d.caretWidth source' ≤ Diagnostic.caretLimit) ∧
    ¬o.Accepts (read o.file) ∧ lenient.Accepts (read o.file) ∧
    (∃ r, (Request.tokenize o).outcome read = .ok r ∧ r.status = 1 ∧ r.output = "" ∧
      r.errors =
        "Error: UnrecognisedToken (`@` is not part of the language)\n" ++
        "-> a.dsl\n" ++
        "  |\n" ++
        "1 | IF x1 = 2.5 \"a\n" ++
        "  | -----------------^\n") ∧
    (∃ r, (Request.tokenize o).outcome (fun _ => .error .missing) = .ok r ∧ r.status = 1 ∧
      r.output = "" ∧
      r.errors =
        "Error: failed to read \"a.dsl\": No such file or directory (os error 2)\n") ∧
    (∃ r, (Request.tokenize lenient).outcome read = .ok r ∧ r.status = 0 ∧ r.errors = "" ∧
      r.output =
        "Line: 1, Column: 1, Type: Keyword, Value: 'if'\n" ++
        "Line: 1, Column: 4, Type: ID, Value: 'x1'\n" ++
        "Line: 1, Column: 7, Type: Symbol, Value: '='\n" ++
        "Line: 1, Column: 9, Type: Number, Value: '2.5'\n" ++
        "Line: 1, Column: 13, Type: String, Value: 'a\n'\n" ++
        "Line: 1, Column: 18, Type: Unknown, Value: '@'\n" ++
        "Line: 1, Column: 24, Type: Newline\n" ++
        "Line: 2, Column: 1, Type: EOF\n") ∧
    ∃ r, (Request.tokenize { lenient with skipTrivia := false }).outcome read = .ok r ∧
      r.status = 0 ∧ r.errors = "" ∧
      r.output =
        "Line: 1, Column: 1, Type: Keyword, Value: 'if'\n" ++
        "Line: 1, Column: 3, Type: Whitespace, Value: ' '\n" ++
        "Line: 1, Column: 4, Type: ID, Value: 'x1'\n" ++
        "Line: 1, Column: 6, Type: Whitespace, Value: ' '\n" ++
        "Line: 1, Column: 7, Type: Symbol, Value: '='\n" ++
        "Line: 1, Column: 8, Type: Whitespace, Value: ' '\n" ++
        "Line: 1, Column: 9, Type: Number, Value: '2.5'\n" ++
        "Line: 1, Column: 12, Type: Whitespace, Value: ' '\n" ++
        "Line: 1, Column: 13, Type: String, Value: 'a\n'\n" ++
        "Line: 1, Column: 17, Type: Whitespace, Value: ' '\n" ++
        "Line: 1, Column: 18, Type: Unknown, Value: '@'\n" ++
        "Line: 1, Column: 19, Type: Comment, Value: ' y'\n" ++
        "Line: 1, Column: 24, Type: Newline\n" ++
        "Line: 2, Column: 1, Type: EOF\n" := by
  intro o lenient source read
  have hd : tokenizeStrict source = .error ⟨.unrecognisedToken "@", ⟨1, 18⟩⟩ := by decide +kernel
  have hwidth : ∀ source' d, read o.file = .ok source' → o.strict = true →
      tokenizeStrict source' = .error d → d.caretWidth source' ≤ Diagnostic.caretLimit := by
    intro source' d hs _ hd'
    obtain rfl := Except.ok.inj hs
    obtain rfl := Except.error.inj (hd.symm.trans hd')
    decide +kernel
  have hunknown : ∃ token ∈ tokenize source, token.kind = .unknown := by decide +kernel
  have hrefused : ¬o.Accepts (read o.file) := by
    rintro ⟨source', hs, hstrict | hknown⟩
    · contradiction
    · obtain rfl := Except.ok.inj hs
      obtain ⟨token, hmem, hk⟩ := hunknown
      exact hknown token hmem hk
  have haccepted : lenient.Accepts (read o.file) := ⟨source, rfl, .inl rfl⟩
  refine ⟨hwidth, hrefused, haccepted, ?_, ?_, ?_, ?_⟩
  · obtain ⟨r, hr, -, -, -, hfailure, -⟩ := outcome_prints_all_or_nothing o read hwidth
    obtain ⟨hstatus, hnone, hreport⟩ := hfailure hrefused
    refine ⟨r, hr, hstatus, hnone, ?_⟩
    rcases hreport with ⟨_, pre, token, post, hs, htokens, hpre, hk, hrender⟩ | ⟨_, hs, -⟩
    · obtain rfl := Except.ok.inj hs
      have hcause := tokenizeStrict_eq_error_iff.2 ⟨pre, token, post, htokens, hpre, hk, rfl⟩
      rw [← Except.error.inj (hd.symm.trans hcause)] at hrender
      exact Except.ok.inj (hrender.symm.trans (by decide +kernel))
    · contradiction
  · obtain ⟨r, hr, -, -, -, hfailure, -⟩ := outcome_prints_all_or_nothing o
      (fun _ => .error .missing) (fun _ _ hs => by contradiction)
    have hmissing : ¬o.Accepts (.error .missing) := by
      rintro ⟨_, hs, -⟩
      contradiction
    obtain ⟨hstatus, hnone, hreason⟩ := hfailure hmissing
    refine ⟨r, hr, hstatus, hnone, ?_⟩
    rcases hreason with ⟨_, _, _, _, hs, -⟩ | ⟨e, he, herrors⟩
    · contradiction
    · obtain rfl := Except.error.inj he
      exact herrors.trans (by decide +kernel)
  · obtain ⟨r, hr, -, hiff, houtput, -⟩ :=
      outcome_prints_all_or_nothing lenient read (fun _ _ _ hstrict => by contradiction)
    obtain ⟨hstatus, herrors⟩ := hiff.2 haccepted
    exact ⟨r, hr, hstatus, herrors, (houtput haccepted source rfl).trans (by decide +kernel)⟩
  · obtain ⟨r, hr, -, hiff, houtput, -⟩ := outcome_prints_all_or_nothing
      { lenient with skipTrivia := false } read (fun _ _ _ hstrict => by contradiction)
    obtain ⟨hstatus, herrors⟩ := hiff.2 haccepted
    exact ⟨r, hr, hstatus, herrors, (houtput haccepted source rfl).trans (by decide +kernel)⟩

end Command

end Lexing
