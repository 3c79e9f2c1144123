import Lexing.Lexeme.Lemmas

/-!
Tokenizers: a lexicon and a cursor in a source text. Tokens can be taken in two ways. `nextToken`
always answers; at the end of the text it answers the end-of-input token, as often as it is asked.
`next?` answers each token once: the end-of-input token is the last one, and after it there is none
until another text is loaded.

Only a newline token starts a new line. Every other token moves the column by the number of its
characters, line breaks inside of it included.
-/

namespace Lexing

/-- The position after a lexeme that starts here. -/
def Position.after (p : Position) (l : Lexeme) : Position :=
  if l.kind = .newline then p.nextLine else p.right l.span.length

/-- A lexicon and a cursor in a source text. -/
structure Tokenizer where
  lexicon : Lexicon := .standard
  /-- The text after the cursor. -/
  rest : List Char := []
  /-- The position of the cursor, where the next token starts. -/
  position : Position := .start
  /-- Whether `next?` has answered the end-of-input token. -/
  finished : Bool := false

namespace Tokenizer

instance : Inhabited Tokenizer := ⟨{}⟩

/-- Whether no text is left. -/
def isExhausted (t : Tokenizer) : Bool :=
  t.rest.isEmpty

/-- Puts the cursor at the start of another text. -/
def load (t : Tokenizer) (source : String) : Tokenizer :=
  { lexicon := t.lexicon, rest := source.toList }

/-- Replaces a part of the lexicon; the cursor stays where it is. -/
def set (t : Tokenizer) (s : Setting) : Tokenizer :=
  { t with lexicon := t.lexicon.set s }

/-- The token at the cursor, and the tokenizer with the cursor behind it. -/
def nextToken (t : Tokenizer) : Token × Tokenizer :=
  let l := t.lexicon.lexeme t.rest
  (⟨l.kind, String.ofList l.value, t.position⟩,
    { t with rest := l.rest, position := t.position.after l })

/-- The next token of the sequence that ends with the end-of-input token, if there is one. -/
def next? (t : Tokenizer) : Option (Token × Tokenizer) :=
  if t.finished then none
  else
    let (token, t) := t.nextToken
    some (token, { t with finished := token.isEnd })

/-! ## Progress -/

/-- How many tokens `next?` can still give at most. -/
def pending (t : Tokenizer) : Nat :=
  if t.finished then 0 else t.rest.length + 1

theorem isEnd_nextToken (t : Tokenizer) : t.nextToken.1.isEnd = t.isExhausted := by
  rw [Bool.eq_iff_iff, Token.isEnd_iff, isExhausted, List.isEmpty_iff]
  exact Lexicon.kind_lexeme_eq_endOfInput_iff

theorem isEnd_nextToken_iff {t : Tokenizer} : t.nextToken.1.isEnd = true ↔ t.rest = [] := by
  rw [isEnd_nextToken, isExhausted, List.isEmpty_iff]

theorem isEnd_nextToken_eq_false_iff {t : Tokenizer} :
    t.nextToken.1.isEnd = false ↔ t.rest ≠ [] := by
  rw [ne_eq, ← isEnd_nextToken_iff, Bool.not_eq_true]

theorem next?_eq_some {t u : Tokenizer} {token : Token} (h : t.next? = some (token, u)) :
    t.finished = false ∧ token = t.nextToken.1 ∧
      u = { t.nextToken.2 with finished := token.isEnd } := by
  unfold next? at h
  split at h
  · contradiction
  · rename_i hf
    cases h
    exact ⟨by simpa using hf, rfl, rfl⟩

theorem next?_eq_none_iff {t : Tokenizer} : t.next? = none ↔ t.finished = true := by
  unfold next?
  split <;> simp_all

theorem pending_lt_of_next? {t u : Tokenizer} {token : Token} (h : t.next? = some (token, u)) :
    u.pending < t.pending := by
  obtain ⟨hf, rfl, rfl⟩ := next?_eq_some h
  rw [pending, pending, hf, isEnd_nextToken]
  by_cases hr : t.rest = []
  -- The end of input leaves no text behind, but it finishes the sequence.
  · simp [isExhausted, hr]
  · have := t.lexicon.length_rest_lexeme_lt hr
    simp only [isExhausted, List.isEmpty_iff, hr, nextToken]
    simpa using this

/-- Induction along the tokens that `next?` gives: what holds when there is none, and holds before a
token whenever it holds after it, holds of every tokenizer. -/
@[elab_as_elim]
theorem next_induction {P : Tokenizer → Prop} (ended : ∀ t, t.next? = none → P t)
    (step : ∀ t token u, t.next? = some (token, u) → P u → P t) (t : Tokenizer) : P t :=
  match h : t.next? with
  | none => ended t h
  | some (token, u) => step t token u h (next_induction ended step u)
termination_by t.pending
decreasing_by exact pending_lt_of_next? h

/-! ## Sequences of tokens -/

/-- What a scan has come to. -/
structure Scan (α : Type) where
  /-- The tokens that have been accepted. -/
  tokens : List Token
  /-- What has been noted while they were taken. -/
  notes : List α
  /-- The token at which the scan has stopped, if it has refused one. -/
  refused? : Option Token
  /-- The tokenizer after the last token that has been taken. -/
  after : Tokenizer

section Scan

variable {α β : Type}

/-- Whether a scan refuses the token: a strict one does when the token is unknown. -/
def refuses (strict : Bool) (token : Token) : Bool :=
  strict && token.kind == .unknown

/-- Takes the tokens that `next?` still gives, in order, and looks at none after a token that it
refuses. What is noted of a token may depend on the tokenizer that it is taken from. -/
def scan (strict : Bool) (note : Tokenizer → Token → List α) (t : Tokenizer) : Scan α :=
  go [] [] t
where
  /-- Gathers tokens and notes, latest first. -/
  go (tokens : List Token) (notes : List α) (t : Tokenizer) : Scan α :=
    match _ : t.next? with
    | none => ⟨tokens.reverse, notes.reverse, none, t⟩
    | some (token, u) =>
      let notes := (note t token).reverse ++ notes
      if refuses strict token then ⟨tokens.reverse, notes.reverse, some token, u⟩
      else go (token :: tokens) notes u
  termination_by t.pending
  decreasing_by exact pending_lt_of_next? ‹_›

/-- The scan with a token accepted before it, at which this has been noted. -/
def Scan.cons (token : Token) (notes : List α) (s : Scan α) : Scan α :=
  { s with tokens := token :: s.tokens, notes := notes ++ s.notes }

variable {strict : Bool} {note : Tokenizer → Token → List α} {t u : Tokenizer} {token : Token}

theorem scan.go_eq (tokens : List Token) (notes : List α) (t : Tokenizer) :
    scan.go strict note tokens notes t =
      let s := t.scan strict note
      { s with tokens := tokens.reverse ++ s.tokens, notes := notes.reverse ++ s.notes } := by
  induction t using next_induction generalizing tokens notes with
  | ended t h =>
    rw [scan, go, go]
    split <;> simp_all
  | step t token u h ih =>
    rw [scan, go, go]
    split
    · simp_all
    -- Both scans go on from `u`, one with `token` behind what has been gathered and one without.
    · rename_i h'
      cases h.symm.trans h'
      simp only
      split
      · simp
      · rw [ih (token :: tokens), ih [token]]
        simp

theorem scan_of_next?_eq_none (h : t.next? = none) : t.scan strict note = ⟨[], [], none, t⟩ := by
  rw [scan, scan.go]
  split <;> simp_all

theorem scan_of_next?_eq_some (h : t.next? = some (token, u)) :
    t.scan strict note =
      if refuses strict token then ⟨[], note t token, some token, u⟩
      else (u.scan strict note).cons token (note t token) := by
  rw [scan, scan.go]
  split
  · simp_all
  · rename_i h'
    cases h.symm.trans h'
    simp only
    split
    · simp
    · rw [scan.go_eq]
      simp [Scan.cons]

/-- Notes nothing. -/
def silent (_ : Tokenizer) (_ : Token) : List Empty :=
  []

/-- The scan without its notes. -/
def Scan.silenced (s : Scan α) : Scan Empty :=
  ⟨s.tokens, [], s.refused?, s.after⟩

/-- What is noted has no influence on the scan. -/
theorem silenced_scan (strict : Bool) (note : Tokenizer → Token → List α) (t : Tokenizer) :
    (t.scan strict note).silenced = t.scan strict silent := by
  induction t using next_induction with
  | ended t h =>
    rw [scan_of_next?_eq_none h, scan_of_next?_eq_none h]
    rfl
  | step t token u h ih =>
    rw [scan_of_next?_eq_some h, scan_of_next?_eq_some h]
    split
    · rfl
    · rw [← ih]
      rfl

end Scan

/-- All tokens that `next?` still gives, and the tokenizer after them. -/
def drain (t : Tokenizer) : List Token × Tokenizer :=
  let s := t.scan false silent
  (s.tokens, s.after)

theorem drain_of_next?_eq_none {t : Tokenizer} (h : t.next? = none) : t.drain = ([], t) := by
  rw [drain, scan_of_next?_eq_none h]

theorem drain_of_next?_eq_some {t u : Tokenizer} {token : Token} (h : t.next? = some (token, u)) :
    t.drain = (token :: u.drain.1, u.drain.2) := by
  simp [drain, scan_of_next?_eq_some h, refuses, Scan.cons]

/-- The tokens of up to `n` calls of `next?`, and the tokenizer after them. -/
def take : Nat → Tokenizer → List Token × Tokenizer
  | 0, t => ([], t)
  | n + 1, t =>
    match t.next? with
    | none => ([], t)
    | some (token, u) =>
      let (tokens, u) := take n u
      (token :: tokens, u)

/-- The tokens of `n` calls of `nextToken`, and the tokenizer after them. -/
def pull : Nat → Tokenizer → List Token × Tokenizer
  | 0, t => ([], t)
  | n + 1, t =>
    let (token, u) := t.nextToken
    let (tokens, u) := pull n u
    (token :: tokens, u)

end Tokenizer

/-- The tokens of the source in this lexicon, up to and including the end of input. -/
def Lexicon.tokenize (L : Lexicon) (source : String) : List Token :=
  ((Tokenizer.load { lexicon := L } source).drain).1

/-- The tokens of the source, up to and including the end of input. -/
def tokenize (source : String) : List Token :=
  Lexicon.standard.tokenize source

end Lexing
