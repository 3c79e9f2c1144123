import Lexing.Position

/-!
Tokens: a kind, a value and the position of the first character. The value is the text that a
reader of the tokens needs, which for some kinds differs from the text of the source: names are in
lower case, quotes and comment marks are left out.
-/

namespace Lexing

/-- What a token is. -/
inductive TokenKind where
  | identifier
  | number
  | string
  | keyword
  | symbol
  | newline
  | endOfInput
  | comment
  | whitespace
  /-- A single character that no rule accepts. -/
  | unknown
deriving DecidableEq, Repr

namespace TokenKind

/-- The name of a kind in output. -/
def name : TokenKind → String
  | identifier => "ID"
  | number => "Number"
  | string => "String"
  | keyword => "Keyword"
  | symbol => "Symbol"
  | newline => "Newline"
  | endOfInput => "EOF"
  | comment => "Comment"
  | whitespace => "Whitespace"
  | unknown => "Unknown"

instance : ToString TokenKind := ⟨name⟩

/-- Whether tokens of this kind only separate others, so that readers usually drop them. -/
def isTrivia : TokenKind → Bool
  | whitespace => true
  | comment => true
  | _ => false

end TokenKind

/-- A token of a source text. -/
structure Token where
  kind : TokenKind
  value : String
  /-- Where the token starts. -/
  position : Position
deriving DecidableEq, Repr

namespace Token

/-- Whether the token marks the end of the text. -/
def isEnd (t : Token) : Bool :=
  t.kind == .endOfInput

@[simp] theorem isEnd_iff {t : Token} : t.isEnd = true ↔ t.kind = .endOfInput := by
  simp [isEnd]

/-- The part of a token's line that shows the value; an empty value is not shown. -/
def valueText (value : String) : String :=
  if value = "" then "" else ", Value: '" ++ value ++ "'"

/-- One line that describes the token, with its line break. -/
def toLine (t : Token) : String :=
  toString t.position ++ ", Type: " ++ t.kind.name ++ valueText t.value ++ "\n"

instance : ToString Token := ⟨toLine⟩

end Token

/-- The lines of all tokens, one after the other. -/
def Token.listing (tokens : List Token) : String :=
  String.join (tokens.map Token.toLine)

end Lexing
