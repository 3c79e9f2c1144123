import Lexing.Proofs.Caret
import Lexing.Proofs.Case
import Lexing.Proofs.Outcome
import Lexing.Proofs.Progress

/-!
Listings read back. The line of a token has labelled fields with commas between them, and only the
last of them, the value, may hold commas, quotes or the text of a label. A line break ends a line, so
that a listing falls into its lines as long as no value holds one: `ofListing?` then reads the tokens
back (`ofListing?_listing`). No two lists of such tokens have one listing, and what the command prints
of a source whose literals keep to their lines gives its tokens back (`listing_unambiguous`).
-/

namespace Lexing

/-! ## Lines -/

namespace TokenKind

/-- The kind of this name. -/
def ofName? (name : String) : Option TokenKind :=
  [identifier, number, string, keyword, symbol, newline, endOfInput, comment, whitespace,
    unknown].find? (·.name = name)

theorem ofName?_name (k : TokenKind) : ofName? k.name = some k := by
  cases k <;> decide

theorem notMem_name {c : Char} (hc : c.isAlpha = false) (k : TokenKind) : c ∉ k.name.toList := by
  have hall : k.name.toList.all Char.isAlpha = true := by cases k <;> rfl
  rw [List.all_eq_true] at hall
  exact fun h => Bool.eq_false_iff.1 hc (hall c h)

end TokenKind

namespace Token

/-- The line of the token in a listing, without its line break. -/
def line (t : Token) : String :=
  toString t.position ++ ", Type: " ++ t.kind.name ++ valueText t.value

theorem toList_toLine (t : Token) : t.toLine.toList = t.line.toList ++ ['\n'] := by
  simp [toLine, line]

/-- The line from label to label. -/
theorem toList_line (t : Token) :
    t.line.toList = "Line: ".toList ++ ((toString t.position.line).toList ++
      (", Column: ".toList ++ ((toString t.position.column).toList ++
        (", Type: ".toList ++ (t.kind.name.toList ++ (valueText t.value).toList))))) := by
  have hposition : toString t.position =
      "Line: " ++ toString t.position.line ++ ", Column: " ++ toString t.position.column := rfl
  simp only [line, hposition, String.toList_append, List.append_assoc]

/-- A field of a line: what stands between a label and the next comma, and the text from there on. -/
def field? (label : String) (text : List Char) : Option (List Char × List Char) :=
  (text.dropPrefix? label.toList).map fun rest =>
    (rest.takeWhile (· ≠ ','), rest.dropWhile (· ≠ ','))

/-- The value at the end of a line. A line that ends without one shows the empty value. -/
def value? (text : List Char) : Option (List Char) :=
  if text = [] then some [] else (text.dropPrefix? ", Value: '".toList).map List.dropLast

/-- The number that is written with these digits. -/
def number? (digits : List Char) : Option Nat :=
  if digits ≠ [] ∧ digits.all Char.isDigit then some (Nat.ofDigitChars 10 digits 0) else none

/-- Reads the line of a token. -/
def ofLine? (text : List Char) : Option Token := do
  let (line, text) ← field? "Line: " text
  let (column, text) ← field? ", Column: " text
  let (kind, text) ← field? ", Type: " text
  return {
    kind := ← TokenKind.ofName? (String.ofList kind)
    value := String.ofList (← value? text)
    position := ⟨← number? line, ← number? column⟩ }

/-- Reads a listing. What stands behind the last line break is left out. -/
def ofListing? (text : String) : Option (List Token) :=
  ((text.toList.splitOn '\n').dropLast).mapM ofLine?

/-! ## Reading a line -/

theorem dropPrefix?_append (label text : List Char) :
    (label ++ text).dropPrefix? label = some text :=
  List.dropPrefix?_eq_some_iff.2 ⟨label, rfl, by simp⟩

theorem field?_append (label : String) {w rest : List Char} (hw : ',' ∉ w)
    (stops : Stops (· ≠ ',') rest) : field? label (label.toList ++ (w ++ rest)) = some (w, rest) := by
  have hcomma : ∀ c ∈ w, decide (c ≠ ',') = true := by
    intro c hc
    have : c ≠ ',' := fun h => hw (h ▸ hc)
    simpa using this
  rw [field?, dropPrefix?_append, Option.map_some, stops.takeWhile_append hcomma,
    stops.dropWhile_append hcomma]

theorem stops_valueText (value : String) : Stops (· ≠ ',') (valueText value).toList := by
  rw [valueText]
  split
  · exact stops_nil _
  · simp [Stops]

theorem value?_valueText (value : String) : value? (valueText value).toList = some value.toList := by
  rw [valueText]
  split
  · rename_i h
    rw [h]
    rfl
  · have htext : (", Value: '" ++ value ++ "'").toList =
        ", Value: '".toList ++ (value.toList ++ ['\'']) := by
      simp
    rw [value?, if_neg (by simp), htext, dropPrefix?_append, Option.map_some, List.dropLast_concat]

theorem number?_toString (n : Nat) : number? (toString n).toList = some n := by
  have hdigits : (toString n).toList = Nat.toDigits 10 n := Nat.toList_repr
  have hall : (Nat.toDigits 10 n).all Char.isDigit = true :=
    List.all_eq_true.2 fun _ => Nat.isDigit_of_mem_toDigits (by decide) (by decide)
  rw [hdigits, number?, if_pos ⟨Nat.toDigits_ne_nil, hall⟩, Nat.ofDigitChars_ten_toDigits]

theorem ofLine?_line (t : Token) : ofLine? t.line.toList = some t := by
  have hcolumn (text : List Char) : Stops (· ≠ ',') (", Column: ".toList ++ text) := rfl
  have hkind (text : List Char) : Stops (· ≠ ',') (", Type: ".toList ++ text) := rfl
  have hnumber (n : Nat) : ',' ∉ (toString n).toList := notMem_toString (by decide) n
  have hname : ',' ∉ t.kind.name.toList := TokenKind.notMem_name (by decide) t.kind
  simp only [ofLine?, toList_line, field?_append _ (hnumber _) (hcolumn _),
    field?_append _ (hnumber _) (hkind _), field?_append _ hname (stops_valueText _), number?_toString,
    value?_valueText, String.ofList_toList, TokenKind.ofName?_name, Option.bind_eq_bind,
    Option.bind_some, Option.pure_def]

theorem break_notMem_line {t : Token} (h : '\n' ∉ t.value.toList) : '\n' ∉ t.line.toList := by
  have hnumber (n : Nat) : '\n' ∉ (toString n).toList := notMem_toString (by decide) n
  have hname : '\n' ∉ t.kind.name.toList := TokenKind.notMem_name (by decide) t.kind
  have hvalue : '\n' ∉ (valueText t.value).toList := by
    rw [valueText]
    split <;> simp [h]
  simp only [toList_line, List.mem_append, not_or]
  exact ⟨by decide, hnumber _, by decide, hnumber _, by decide, hname, hvalue⟩

/-! ## Reading a listing -/

variable {tokens : List Token}

/-- A listing falls into the lines of its tokens, with nothing behind the last break. -/
theorem splitOn_listing (h : ∀ t ∈ tokens, '\n' ∉ t.value.toList) :
    (listing tokens).toList.splitOn '\n' = tokens.map (·.line.toList) ++ [[]] := by
  rw [listing, String.toList_join, List.flatMap_map]
  induction tokens with
  | nil => rfl
  | cons t tokens ih =>
    obtain ⟨ht, htokens⟩ := List.forall_mem_cons.1 h
    rw [List.flatMap_cons, toList_toLine, List.append_assoc, List.singleton_append,
      List.splitOn_append_cons_self_of_not_mem (break_notMem_line ht), ih htokens]
    rfl

theorem mapM_ofLine? (tokens : List Token) :
    (tokens.map (·.line.toList)).mapM ofLine? = some tokens := by
  induction tokens with
  | nil => rfl
  | cons t tokens ih => simp [List.mapM_cons, ofLine?_line, ih]

theorem ofListing?_listing (h : ∀ t ∈ tokens, '\n' ∉ t.value.toList) :
    ofListing? (listing tokens) = some tokens := by
  rw [ofListing?, splitOn_listing h, List.dropLast_concat, mapM_ofLine?]

end Token

/-! ## The output of the command -/

/-- Of the tokens of the standard lexicon only literals have values with line breaks. -/
theorem Lexeme.Standard.break_notMem_value {l : Lexeme} (h : l.Standard) (hs : l.kind ≠ .string) :
    '\n' ∉ l.value := by
  by_cases hn : l.kind = .newline
  · cases h with
    | newline => exact List.not_mem_nil
    | _ => contradiction
  have hspan := h.break_notMem hn hs
  cases h with
  | comment _ line => exact line
  | newline | string => contradiction
  | keyword | name | label => rwa [mem_lowered_iff (by decide)]
  | _ => exact hspan

theorem break_notMem_of_mem_tokenize {source : String} {token : Token} (h : token ∈ tokenize source)
    (hliteral : token.kind = .string → '\n' ∉ token.value.toList) : '\n' ∉ token.value.toList := by
  obtain ⟨u, hL, rfl⟩ := Tokenizer.exists_of_mem_drain h
  have hreads := u.reads_nextToken
  by_cases hs : u.nextToken.1.kind = .string
  · exact hliteral hs
  by_cases hr : u.rest = []
  · rw [Tokenizer.token_of_rest_eq_nil hr]
    exact List.not_mem_nil
  have hstandard : (u.lexicon.lexeme u.rest).Standard := by
    rw [hL]
    exact Lexeme.standard_lexeme hr
  rw [hreads.value]
  exact hstandard.break_notMem_value hs

namespace Command

/-- Two lists of tokens whose values keep to their lines are equal when their listings are. So the
tokens that the command prints can be read back, all tokens of the source unless trivia is left out,
as long as no literal of the source goes over a line break. -/
theorem listing_unambiguous :
    (∀ tokens tokens' : List Token, (∀ t ∈ tokens, '\n' ∉ t.value.toList) →
      (∀ t ∈ tokens', '\n' ∉ t.value.toList) →
      Token.listing tokens = Token.listing tokens' → tokens = tokens') ∧
    ∀ (o : Options) (read : String → Except ReadError String) (source : String),
      read o.file = .ok source →
      (o.strict = false ∨ ∀ token ∈ tokenize source, token.kind ≠ .unknown) →
      (∀ token ∈ tokenize source, token.kind = .string → '\n' ∉ token.value.toList) →
      ∃ r, (Request.tokenize o).outcome read = .ok r ∧ r.status = 0 ∧
        Token.ofListing? r.output =
          some (if o.skipTrivia then
            (tokenize source).filter fun t => t.kind ≠ .whitespace ∧ t.kind ≠ .comment
          else tokenize source) := by
  refine ⟨fun tokens tokens' h h' heq => ?_, fun o read source hread haccepted hliteral => ?_⟩
  · have hread := Token.ofListing?_listing h
    rw [heq, Token.ofListing?_listing h'] at hread
    exact (Option.some.inj hread).symm
  · obtain ⟨r, hr, hstatus, houtput⟩ := exists_outcome_of_accepts haccepted
    refine ⟨r, by rw [Request.outcome, hread, hr], hstatus, ?_⟩
    rw [houtput, Token.ofListing?_listing, visible_eq]
    intro t ht
    have hmem : t ∈ tokenize source := (List.mem_filter.1 ht).1
    exact break_notMem_of_mem_tokenize hmem (hliteral t hmem)

/-- The values hold commas, quotes and the texts of labels. -/
theorem listing_unambiguous_of_labels :
    let tokens : List Token :=
      [⟨.string, "a', Value: 'b", ⟨1, 10⟩⟩, ⟨.comment, ", Type: ID", ⟨20, 3⟩⟩, ⟨.newline, "", ⟨4, 4⟩⟩]
    let o : Options := { file := "a.dsl", skipTrivia := true }
    let source := "x = \", Value: 'é'\" // y"
    let read : String → Except ReadError String := fun _ => .ok source
    (∀ t ∈ tokens, '\n' ∉ t.value.toList) ∧
      (∀ tokens', (∀ t ∈ tokens', '\n' ∉ t.value.toList) →
        Token.listing tokens = Token.listing tokens' → tokens = tokens') ∧
      (∀ token ∈ tokenize source, token.kind = .string → '\n' ∉ token.value.toList) ∧
      ∃ r, (Request.tokenize o).outcome read = .ok r ∧ r.status = 0 ∧
        Token.ofListing? r.output =
          some ((tokenize source).filter fun t => t.kind ≠ .whitespace ∧ t.kind ≠ .comment) := by
  intro tokens o source read
  have htokens : ∀ t ∈ tokens, '\n' ∉ t.value.toList := by decide
  have hliteral : ∀ token ∈ tokenize source, token.kind = .string → '\n' ∉ token.value.toList := by
    decide +kernel
  obtain ⟨hunique, hread⟩ := listing_unambiguous
  exact ⟨htokens, fun tokens' => hunique tokens tokens' htokens, hliteral,
    hread o read source rfl (.inl rfl) hliteral⟩

end Command

end Lexing
