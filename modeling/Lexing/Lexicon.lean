import Lexing.Pattern.Standard

/-!
Lexicons: what a tokenizer knows of its language. A lexicon holds a table of symbols, a list of
keywords and a pattern each for comments, identifiers and numbers; all of these may be replaced.
It also fixes the order in which the rules are tried, which decides between rules that accept the
same text.
-/

namespace Lexing

/-- The rules by which a text may start with a token. -/
inductive Rule where
  | comment
  | endOfInput
  | whitespace
  | keyword
  | newline
  | symbol
  | identifier
  | string
  | number
deriving DecidableEq, Repr

/-- The order of the rules: the first one that accepts decides. Comments go before the blanks and
the slash that they start with, and keywords before identifiers. -/
def Rule.priority : List Rule :=
  [comment, endOfInput, whitespace, keyword, newline, symbol, identifier, string, number]

/-- What a tokenizer knows of its language. -/
structure Lexicon where
  rules : List Rule
  /-- The symbols, in the order in which they are tried. -/
  symbols : List (List Char)
  /-- The keywords, in lower case. -/
  keywords : List (List Char)
  comment : Pattern
  identifier : Pattern
  number : Pattern
  symbols_ne_nil : ∀ s ∈ symbols, s ≠ []

namespace Lexicon

/-- The operators and the punctuation of the language, two-character symbols first. -/
def standardSymbols : List String :=
  ["++", "--", ">=", "<=", "!=", "==", "+=", "-=", "*=", "/=", "%=",
   "=", ">", "<", "+", "-", "*", "/", "^", "%", ",", "(", ")"]

/-- The keywords of the language, in alphabetical order. -/
def standardKeywords : List String :=
  ["and", "else", "end", "goto", "if", "not", "or", "then"]

/-- The lexicon of the language. -/
def standard : Lexicon where
  rules := Rule.priority
  symbols := standardSymbols.map String.toList
  keywords := standardKeywords.map String.toList
  comment := .comment
  identifier := .identifier
  number := .number
  symbols_ne_nil := by decide

instance : Inhabited Lexicon := ⟨standard⟩

end Lexicon

/-- A part of a lexicon that may be replaced, with its new content. -/
inductive Setting where
  | symbols (table : List String)
  | keywords (words : List String)
  | comment (p : Pattern)
  | identifier (p : Pattern)
  | number (p : Pattern)

namespace Lexicon

/-- The lexicon with another symbol table, from which empty symbols are left out. -/
def withSymbols (L : Lexicon) (table : List String) : Lexicon :=
  { L with
    symbols := (table.map String.toList).filter (· ≠ [])
    symbols_ne_nil := fun s hs => by simpa using (List.mem_filter.1 hs).2 }

/-- The lexicon with other keywords. They are put in lower case, since words are compared in lower
case, and empty ones are left out. -/
def withKeywords (L : Lexicon) (words : List String) : Lexicon :=
  { L with keywords := (words.map fun w => lowered w.toList).filter (· ≠ []) }

/-- The lexicon with one part replaced. -/
def set (L : Lexicon) : Setting → Lexicon
  | .symbols table => L.withSymbols table
  | .keywords words => L.withKeywords words
  | .comment p => { L with comment := p }
  | .identifier p => { L with identifier := p }
  | .number p => { L with number := p }

@[simp] theorem rules_set (L : Lexicon) (s : Setting) : (L.set s).rules = L.rules := by
  cases s <;> rfl

end Lexicon

end Lexing
