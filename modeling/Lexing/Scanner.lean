import Lexing.Diagnostic.Report
import Lexing.Session
import Lexing.Text.Slice

/-!
Scanners: tokenizers as they are laid out in memory. A scanner keeps the whole source as UTF-8 and
its cursor as an offset in bytes, and it reads by taking slices. How far it moves is computed in
bytes as well, in a way of its own for every rule; only columns count characters. A slice that does
not exist stops the scanner for good.

The rules are those of the lexicon, which is shared with tokenizers, but each is written down
against the bytes. Searches find pieces between byte offsets.
-/

namespace Lexing

/-! ## Matches in bytes -/

/-- The piece of the text between byte offsets, from the piece between characters. -/
def Piece.inBytes (p : Piece) (text : List Char) : Piece where
  start := byteOffset text p.start
  stop := byteOffset text p.stop

/-- The match with its pieces between byte offsets. -/
def Match.inBytes (m : Match) (text : List Char) : Match where
  whole := m.whole.inBytes text
  group? := m.group?.map (·.inBytes text)

/-- The leftmost match, with its pieces between byte offsets. -/
def Pattern.search (p : Pattern) (text : String) : Option Match :=
  (p.find? text.toList).map (·.inBytes text.toList)

/-- What is known of a match in bytes: its pieces begin and end on boundaries of the text, they are
not reversed, and the group lies inside the whole match. -/
structure Match.OnBoundaries (m : Match) (text : String) : Prop where
  start : IsBoundary text m.whole.start
  stop : IsBoundary text m.whole.stop
  start_le : m.whole.start ≤ m.whole.stop
  group : ∀ g ∈ m.group?, IsBoundary text g.start ∧ IsBoundary text g.stop
  group_le : ∀ g ∈ m.group?, m.whole.start ≤ g.start ∧ g.start ≤ g.stop ∧ g.stop ≤ m.whole.stop

/-- The offset of the first double quote in the body of a string literal that is not escaped. -/
def closingOffset? (body : String) : Option Nat :=
  go false 0 body.toList
where
  /-- Searches what is left of the body behind an offset. -/
  go (escaped : Bool) (offset : Nat) : List Char → Option Nat
    | [] => none
    | c :: rest =>
      if escaped then go false (offset + c.utf8Size) rest
      else if c = '"' then some offset
      else go (c = '\\') (offset + c.utf8Size) rest

/-- A lexicon, a source and a cursor in it. -/
structure Scanner where
  lexicon : Lexicon := .standard
  source : String := ""
  /-- The number of bytes before the cursor. -/
  offset : Nat := 0
  /-- The position of the cursor, where the next token starts. -/
  position : Position := .start
  /-- Whether `next?` has answered the end-of-input token. -/
  finished : Bool := false

namespace Scanner

/-! ## The cursor -/

/-- Puts the cursor at the start of another source. -/
def load (s : Scanner) (source : String) : Scanner :=
  { lexicon := s.lexicon, source := source }

/-- Replaces a part of the lexicon; the cursor stays where it is. -/
def set (s : Scanner) (setting : Setting) : Scanner :=
  { s with lexicon := s.lexicon.set setting }

/-- Whether no byte is left. -/
def isExhausted (s : Scanner) : Bool :=
  s.source.utf8ByteSize ≤ s.offset

/-- The source from the cursor on. -/
def remainder (s : Scanner) : Except BadSlice String :=
  slice s.source s.offset s.source.utf8ByteSize

/-- A token at the cursor. -/
def newToken (s : Scanner) (kind : TokenKind) (value : String) : Token :=
  ⟨kind, value, s.position⟩

/-- Moves the cursor by a number of bytes, and the column by the number of characters in them. -/
def advance (s : Scanner) (amount : Nat) : Except BadSlice Scanner := do
  let consumed ← slice s.source s.offset (s.offset + amount)
  return { s with
    offset := s.offset + amount
    position := s.position.right consumed.length }

/-- A token at the cursor, and the scanner with the cursor moved behind it. -/
def takeToken (s : Scanner) (kind : TokenKind) (value : String) (amount : Nat) :
    Except BadSlice (Token × Scanner) := do
  return (s.newToken kind value, ← s.advance amount)

/-! ## Rules

Each rule answers a token and the scanner behind it, or nothing when it does not accept. -/

/-- What the pattern matches at the cursor, unless that is empty. The value is read off one piece of
the match. -/
def matching? (s : Scanner) (p : Pattern) (kind : TokenKind) (piece : Match → Piece)
    (value : List Char → List Char) : Except BadSlice (Option (Token × Scanner)) := do
  let text ← s.remainder
  match (p.search text).filter fun m => m.whole.start == 0 && m.whole.stop != m.whole.start with
  | none => return none
  | some m =>
    let content ← slice text (piece m).start (piece m).stop
    return some (← s.takeToken kind (String.ofList (value content.toList)) m.whole.stop)

/-- All characters of a class that stand at the cursor, if there is one and their value is
accepted. -/
def run? (s : Scanner) (p : Char → Bool) (kind : TokenKind) (value : List Char → List Char)
    (accepts : List Char → Bool) : Except BadSlice (Option (Token × Scanner)) := do
  let text ← s.remainder
  let stop := byteOffset text.toList (runLength p text.toList)
  if stop = 0 then return none
  else
    let content ← slice text 0 stop
    let result := value content.toList
    if accepts result then return some (← s.takeToken kind (String.ofList result) stop)
    else return none

/-- The end of the source. -/
def endOfInput? (s : Scanner) : Except BadSlice (Option (Token × Scanner)) :=
  return if s.isExhausted then some (s.newToken .endOfInput "", s) else none

/-- A single line break. The cursor goes to column 0 of the next line before it moves. -/
def newline? (s : Scanner) : Except BadSlice (Option (Token × Scanner)) := do
  let text ← s.remainder
  if text.toList.head? = some '\n' then
    let below := { s with position := ⟨s.position.line + 1, 0⟩ }
    return some (s.newToken .newline "", ← below.advance 1)
  else return none

/-- The first symbol of the table that stands at the cursor. -/
def symbol? (s : Scanner) : Except BadSlice (Option (Token × Scanner)) := do
  let text ← s.remainder
  match s.lexicon.symbols.find? (·.isPrefixOf text.toList) with
  | none => return none
  | some symbol =>
    let value := String.ofList symbol
    return some (← s.takeToken .symbol value value.utf8ByteSize)

/-- A string literal. The search for the closing quote starts behind the opening one. -/
def string? (s : Scanner) : Except BadSlice (Option (Token × Scanner)) := do
  let text ← s.remainder
  if text.utf8ByteSize < 2 ∨ text.toList.head? ≠ some '"' then return none
  else
    match closingOffset? (← slice text 1 text.utf8ByteSize) with
    | none => return none
    | some offset =>
      let close := offset + 1
      return some (← s.takeToken .string (← slice text 1 close) (close + 1))

/-- What one rule accepts at the cursor. -/
def accept? (s : Scanner) : Rule → Except BadSlice (Option (Token × Scanner))
  | .comment => s.matching? s.lexicon.comment .comment Match.content id
  | .endOfInput => s.endOfInput?
  | .whitespace => s.run? isLayout .whitespace id fun _ => true
  | .keyword => s.run? isWordChar .keyword lowered (s.lexicon.keywords.contains ·)
  | .newline => s.newline?
  | .symbol => s.symbol?
  | .identifier => s.matching? s.lexicon.identifier .identifier Match.whole lowered
  | .string => s.string?
  | .number => s.matching? s.lexicon.number .number Match.whole id

/-- The character at the cursor as an unknown token; the end of input if there is none. -/
def unrecognised (s : Scanner) : Except BadSlice (Token × Scanner) := do
  match (← s.remainder).toList with
  | [] => return (s.newToken .endOfInput "", s)
  | c :: _ => s.takeToken .unknown (String.singleton c) c.utf8Size

/-! ## Tokens and calls -/

/-- The token at the cursor, and the scanner with the cursor behind it. -/
def nextToken (s : Scanner) : Except BadSlice (Token × Scanner) := do
  match ← s.lexicon.rules.findSomeM? s.accept? with
  | some result => return result
  | none => s.unrecognised

/-- The next token of the sequence that ends with the end-of-input token, if there is one. -/
def next? (s : Scanner) : Except BadSlice (Option (Token × Scanner)) := do
  if s.finished then return none
  else
    let (token, s) ← s.nextToken
    return some (token, if token.isEnd then { s with finished := true } else s)

/-- Answers a call, and gives the scanner after it. -/
def call (s : Scanner) : Call → Except BadSlice (Reply × Scanner)
  | .load source => return (.done, s.load source)
  | .nextToken => do
    let (token, s) ← s.nextToken
    return (.token (some token), s)
  | .next => do
    match ← s.next? with
    | none => return (.token none, s)
    | some (token, s) => return (.token (some token), s)
  | .set setting => return (.done, s.set setting)

/-- Answers a history of calls, and gives the scanner after it. -/
def calls (s : Scanner) : List Call → Except BadSlice (List Reply × Scanner)
  | [] => return ([], s)
  | c :: cs => do
    let (reply, s) ← s.call c
    let (replies, s) ← s.calls cs
    return (reply :: replies, s)

end Scanner

/-! ## Reports -/

/-- The line without the blanks at its start, and their number, by which the line is cut. -/
def withoutBlanks (line : String) : Except BadSlice (String × Nat) := do
  let blanks := runLength isBlank line.toList
  return (← slice line blanks line.utf8ByteSize, blanks)

/-- Lays out the report of a diagnostic about a source, with the line cut by `withoutBlanks`. -/
def Diagnostic.cutReport (d : Diagnostic) (source file : String) :
    Except BadSlice (Except LayoutError Report) := do
  let (line, blanks) ← withoutBlanks (String.ofList (d.sourceLine source))
  let width := max 1 (d.position.column - blanks)
  return if width > caretLimit then .error (.caretOutOfRange width)
    else .ok
      { heading := d.heading
        file := "-> " ++ file
        gutter := String.ofList d.gutter
        excerpt := toString d.position.line ++ " | " ++
          String.ofList (dropTrailingSpace line.toList)
        caret := String.ofList (d.gutter ++ ' ' :: List.replicate (width - 1) '-' ++ ['^']) }

end Lexing
