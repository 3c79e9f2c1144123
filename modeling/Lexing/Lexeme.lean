import Lexing.Lexicon
import Lexing.Text.Literal
import Lexing.Token

/-!
Lexemes: what a text starts with. A lexeme splits the text into the span of a token and the rest,
and says which token the span stands for. Each rule answers a lexeme or nothing; the first rule of
the lexicon that answers decides, and a text that no rule accepts starts with an unknown character.
-/

namespace Lexing

/-- The first token of a text and how it lies in the text. -/
structure Lexeme where
  kind : TokenKind
  value : List Char
  /-- The characters of the token. -/
  span : List Char
  /-- The characters after the token. -/
  rest : List Char
deriving DecidableEq, Repr

namespace Lexeme

/-- The end of a text, where no character is left. -/
def endOfInput : Lexeme :=
  ⟨.endOfInput, [], [], []⟩

/-- What a text starts with when no rule accepts it: its first character. -/
def unrecognised : List Char → Lexeme
  | [] => endOfInput
  | c :: rest => ⟨.unknown, [c], [c], rest⟩

/-- The lexeme of the first `n` characters of the text. -/
def ofLength (kind : TokenKind) (value : List Char → List Char) (text : List Char) (n : Nat) :
    Lexeme :=
  ⟨kind, value (text.take n), text.take n, text.drop n⟩

/-! ## Rules that every lexicon shares -/

/-- The end of the text. -/
def endOfInput? : List Char → Option Lexeme
  | [] => some endOfInput
  | _ :: _ => none

/-- All layout characters that the text starts with. -/
def whitespace? (text : List Char) : Option Lexeme :=
  if runLength isLayout text = 0 then none
  else some (ofLength .whitespace id text (runLength isLayout text))

/-- A single line break. -/
def newline? : List Char → Option Lexeme
  | [] => none
  | c :: rest => if c = '\n' then some ⟨.newline, [], [c], rest⟩ else none

/-- A string literal, from a double quote to the next one that is not escaped. The value is what
stands between them, with its escapes as they are. -/
def string? : List Char → Option Lexeme
  | [] => none
  | c :: body =>
    if c = '"' then
      (closingQuote? false body).map fun i =>
        ⟨.string, body.take i, (c :: body).take (i + 2), body.drop (i + 1)⟩
    else none

/-- What a leading match of the pattern consumes. -/
def matching? (p : Pattern) (kind : TokenKind) (value : List Char → List Char)
    (text : List Char) : Option Lexeme :=
  (p.leading? text).map fun m => ofLength kind value text m.whole.stop

end Lexeme

namespace Lexicon

/-! ## Rules that depend on the lexicon -/

/-- A comment; its value is the content of the match. -/
def comment? (L : Lexicon) (text : List Char) : Option Lexeme :=
  (L.comment.leading? text).map fun m =>
    .ofLength .comment (fun _ => m.content.of text) text m.whole.stop

/-- The word that the text starts with, if all of it is a keyword. -/
def keyword? (L : Lexicon) (text : List Char) : Option Lexeme :=
  let n := runLength isWordChar text
  if n ≠ 0 ∧ lowered (text.take n) ∈ L.keywords then some (.ofLength .keyword lowered text n)
  else none

/-- The first symbol of the table that the text starts with. -/
def symbol? (L : Lexicon) (text : List Char) : Option Lexeme :=
  (L.symbols.find? (·.isPrefixOf text)).map fun s => .ofLength .symbol id text s.length

/-- An identifier, in lower case. -/
def identifier? (L : Lexicon) (text : List Char) : Option Lexeme :=
  Lexeme.matching? L.identifier .identifier lowered text

/-- A number, as it is written. -/
def number? (L : Lexicon) (text : List Char) : Option Lexeme :=
  Lexeme.matching? L.number .number id text

/-! ## The first rule that accepts -/

/-- The lexeme that one rule accepts at the start of the text. -/
def lexeme? (L : Lexicon) (text : List Char) : Rule → Option Lexeme
  | .comment => L.comment? text
  | .endOfInput => Lexeme.endOfInput? text
  | .whitespace => Lexeme.whitespace? text
  | .keyword => L.keyword? text
  | .newline => Lexeme.newline? text
  | .symbol => L.symbol? text
  | .identifier => L.identifier? text
  | .string => Lexeme.string? text
  | .number => L.number? text

/-- The lexeme of the first rule that accepts the text. -/
def recognise? (L : Lexicon) (text : List Char) : Option Lexeme :=
  L.rules.findSome? (L.lexeme? text)

/-- What the text starts with. -/
def lexeme (L : Lexicon) (text : List Char) : Lexeme :=
  (L.recognise? text).getD (.unrecognised text)

end Lexicon

end Lexing
