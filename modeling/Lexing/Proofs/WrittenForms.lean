import Lexing.Pattern.Reader
import Lexing.Proofs.PatternRuns
import Lexing.Proofs.Rules
import Lexing.Proofs.Run

/-!
The written forms of the standard patterns. The standard lexicon says by functions on texts what its
patterns match. Here the patterns are written down and read, and what is read has their leading
matches. The rules for whitespace and keywords, which no lexicon may replace, take what a written
form matches as well.

So a lexicon that is given the patterns in their written form has the tokens of the standard lexicon
for every source (`tokenize_of_read?`).
-/

namespace Lexing

/-! ## Forms -/

namespace Pattern

/-- Blanks, a comment mark and the rest of the line, which is the group. -/
def commentForm : String := "^[ \\t]*//([^\\n]*)"

/-- A run of layout characters. -/
def layoutForm : String := "^[ \\t\\r]+"

/-- A run of word characters. -/
def wordForm : String := "^[a-zA-Z0-9_]+"

/-- A letter and all word characters after it, possibly after a colon. -/
def identifierForm : String := "^:?[a-zA-Z]+[a-zA-Z0-9_]*"

/-- Digits, possibly with a fraction. -/
def numberForm : String := "^[0-9]+(\\.[0-9]+)?"

/-! ### Reading -/

theorem read?_eq_of_program {text : String} {P : Program}
    (h : (Expr.read? text.toList).map Expr.program = some P) : read? text = some P.pattern := by
  obtain ⟨e, he, rfl⟩ := Option.map_eq_some_iff.1 h
  rw [read?, he]
  rfl

theorem read?_commentForm : read? commentForm = some Program.comment.pattern :=
  read?_eq_of_program (by decide +kernel)

theorem read?_layoutForm :
    read? layoutForm = some (Program.repeated CharSet.layout).pattern :=
  read?_eq_of_program (by decide +kernel)

theorem read?_wordForm :
    read? wordForm = some (Program.repeated CharSet.wordChars).pattern :=
  read?_eq_of_program (by decide +kernel)

theorem read?_identifierForm : read? identifierForm = some Program.identifier.pattern :=
  read?_eq_of_program (by decide +kernel)

theorem read?_numberForm : read? numberForm = some Program.number.pattern :=
  read?_eq_of_program (by decide +kernel)

/-! ### Matching -/

variable {p : Pattern}

theorem map_whole_leading? (p : Pattern) (text : List Char) :
    (p.leading? text).map Match.whole =
      ((p.matchAt? text 0).map Match.whole).filter (·.stop != 0) := by
  rw [leading?]
  cases p.matchAt? text 0 with
  | none => rfl
  | some m =>
    rw [Option.filter, Option.map_some, Option.filter]
    split <;> rfl

theorem leading?_repeated (s : CharSet) (text : List Char) :
    (Program.repeated s).pattern.leading? text =
      (ofLength (runLength s.contains) (runLength_le s.contains)).leading? text :=
  congrArg (Option.filter _) (Program.matchAt?_repeated text)

/-- The leading matches of the written form of comments. -/
theorem leading?_of_read?_comment (h : read? commentForm = some p) (text : List Char) :
    p.leading? text = comment.leading? text := by
  obtain rfl := Option.some.inj (read?_commentForm.symm.trans h)
  exact congrArg (Option.filter _) (Program.matchAt?_comment text)

/-- The leading matches of the written form of identifiers. -/
theorem leading?_of_read?_identifier (h : read? identifierForm = some p) (text : List Char) :
    p.leading? text = identifier.leading? text := by
  obtain rfl := Option.some.inj (read?_identifierForm.symm.trans h)
  exact congrArg (Option.filter _) (Program.matchAt?_identifier text)

/-- The leading matches of the written form of numbers, save for their groups. -/
theorem leading?_of_read?_number (h : read? numberForm = some p) (text : List Char) :
    (p.leading? text).map Match.whole = (number.leading? text).map Match.whole := by
  obtain rfl := Option.some.inj (read?_numberForm.symm.trans h)
  have hmatch : (number.matchAt? text 0).map Match.whole =
      (Program.number.matchAt? text 0).map Match.whole := by
    rw [Program.matchAt?_number]
    show (if numberLength text = 0 then none else some _).map Match.whole = _
    split <;> rfl
  rw [map_whole_leading?, map_whole_leading?, hmatch]
  rfl

end Pattern

/-! ## Rules -/

namespace Lexeme

variable {p : Pattern}

theorem matching?_repeated (s : CharSet) (kind : TokenKind) (value : List Char → List Char)
    (text : List Char) :
    matching? (Program.repeated s).pattern kind value text =
      if runLength s.contains text = 0 then none
      else some (ofLength kind value text (runLength s.contains text)) := by
  rw [matching?, Pattern.leading?_repeated]
  exact matching?_ofLength _ _ kind value text

/-- The rule for whitespace takes what its written form matches. -/
theorem whitespace?_eq_of_read? (h : Pattern.read? Pattern.layoutForm = some p) (text : List Char) :
    whitespace? text = matching? p .whitespace id text := by
  obtain rfl := Option.some.inj (Pattern.read?_layoutForm.symm.trans h)
  rw [matching?_repeated, CharSet.contains_layout, whitespace?]

end Lexeme

namespace Lexicon

variable {p comment identifier number : Pattern}

/-- The rule for keywords takes a match of the written form of words if it is a keyword. -/
theorem keyword?_eq_of_read? (h : Pattern.read? Pattern.wordForm = some p) (L : Lexicon)
    (text : List Char) :
    L.keyword? text =
      (Lexeme.matching? p .keyword lowered text).filter fun l => l.value ∈ L.keywords := by
  obtain rfl := Option.some.inj (Pattern.read?_wordForm.symm.trans h)
  rw [Lexeme.matching?_repeated, CharSet.contains_wordChars, keyword?]
  by_cases hzero : runLength isWordChar text = 0
  · simp [hzero]
  · simp [hzero, Option.filter, Lexeme.ofLength]

/-- The lexicon with all its patterns replaced. -/
def withPatterns (L : Lexicon) (comment identifier number : Pattern) : Lexicon :=
  ((L.set (.comment comment)).set (.identifier identifier)).set (.number number)

/-- With patterns that have been read from their written forms a text starts with what it starts
with in the standard lexicon. -/
theorem lexeme_of_read? (hc : Pattern.read? Pattern.commentForm = some comment)
    (hi : Pattern.read? Pattern.identifierForm = some identifier)
    (hn : Pattern.read? Pattern.numberForm = some number) (text : List Char) :
    (standard.withPatterns comment identifier number).lexeme text = standard.lexeme text := by
  have hrule (r : Rule) : (standard.withPatterns comment identifier number).lexeme? text r =
      standard.lexeme? text r := by
    cases r with
    | comment => exact congrArg (Option.map _) (Pattern.leading?_of_read?_comment hc text)
    | identifier => exact congrArg (Option.map _) (Pattern.leading?_of_read?_identifier hi text)
    | number =>
      have h := congrArg (Option.map fun w => Lexeme.ofLength .number id text w.stop)
        (Pattern.leading?_of_read?_number hn text)
      rw [Option.map_map, Option.map_map] at h
      exact h
    | _ => rfl
  rw [lexeme, lexeme, recognise?, recognise?, funext hrule]
  rfl

/-- So every source has the tokens that it has in the standard lexicon. -/
theorem tokenize_of_read? (hc : Pattern.read? Pattern.commentForm = some comment)
    (hi : Pattern.read? Pattern.identifierForm = some identifier)
    (hn : Pattern.read? Pattern.numberForm = some number) (source : String) :
    (standard.withPatterns comment identifier number).tokenize source = Lexing.tokenize source :=
  tokenize_congr (lexeme_of_read? hc hi hn) source

end Lexicon

end Lexing
