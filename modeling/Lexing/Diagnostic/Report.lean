import Lexing.Diagnostic
import Lexing.Text.Alphabet
import Lexing.Text.Line
import Lexing.Unicode.WhiteSpace

/-!
Reports: a diagnostic with the line of the source that it is about and a caret below the column. The
line is shown without its blanks at the start and its white space at the end, and the caret moves to
the left by as many columns as blanks were left out.

The caret line is as wide as the column demands, up to a limit. A diagnostic with a column beyond
it has no report.
-/

namespace Lexing

/-- The five lines of a report. -/
structure Report where
  heading : String
  file : String
  /-- The empty line above the excerpt. -/
  gutter : String
  /-- The line of the source, after its number. -/
  excerpt : String
  caret : String
deriving DecidableEq, Repr

/-- The report as text. Each line ends in a line break. -/
def Report.text (r : Report) : String :=
  String.join ([r.heading, r.file, r.gutter, r.excerpt, r.caret].map (· ++ "\n"))

/-- Why a report cannot be laid out. -/
inductive LayoutError where
  /-- The caret stands further to the right than a line may reach. -/
  | caretOutOfRange (width : Nat)
deriving DecidableEq, Repr

/-- The error in words. -/
def LayoutError.message : LayoutError → String
  | caretOutOfRange _ => "Formatting argument out of range"

/-- The text without white space at its end. -/
def dropTrailingSpace (text : List Char) : List Char :=
  (text.reverse.dropWhile Unicode.isWhiteSpace).reverse

namespace Diagnostic

/-- The greatest width of the dashes and the caret. -/
def caretLimit : Nat := 65535

/-- The name of the cause, with the tip if there is one. -/
def heading (d : Diagnostic) : String :=
  match d.cause.tip? with
  | some tip => "Error: " ++ d.cause.name ++ " (" ++ tip ++ ")"
  | none => "Error: " ++ d.cause.name

/-- The line that the diagnostic is about; empty if the source has no such line. -/
def sourceLine (d : Diagnostic) (source : String) : List Char :=
  (lineExcerpt? source.toList d.position.line).getD []

/-- The width of the dashes and the caret below the line: the column, less the blanks that are left
out of the line. -/
def caretWidth (d : Diagnostic) (source : String) : Nat :=
  max 1 (d.position.column - runLength isBlank (d.sourceLine source))

/-- The bar beside the excerpt, in the column that follows the line number and a space. -/
def gutter (d : Diagnostic) : List Char :=
  List.replicate ((toString d.position.line).length + 1) ' ' ++ ['|']

/-- Lays out the report of a diagnostic about a source. -/
def report (d : Diagnostic) (source file : String) : Except LayoutError Report :=
  let width := d.caretWidth source
  if width > caretLimit then .error (.caretOutOfRange width)
  else
    let shown := dropTrailingSpace ((d.sourceLine source).dropWhile isBlank)
    .ok
      { heading := d.heading
        file := "-> " ++ file
        gutter := String.ofList d.gutter
        excerpt := toString d.position.line ++ " | " ++ String.ofList shown
        caret := String.ofList (d.gutter ++ ' ' :: List.replicate (width - 1) '-' ++ ['^']) }

/-- The text of the report. -/
def render (d : Diagnostic) (source file : String) : Except LayoutError String :=
  (d.report source file).map Report.text

theorem render_of_caretLimit_lt {d : Diagnostic} {source : String}
    (h : caretLimit < d.caretWidth source) (file : String) :
    d.render source file = .error (.caretOutOfRange (d.caretWidth source)) := by
  simp [render, report, h, Except.map]

/-- A report can be laid out exactly when its caret is in range. -/
theorem exists_render_iff {d : Diagnostic} {source file : String} :
    (∃ text, d.render source file = .ok text) ↔ d.caretWidth source ≤ caretLimit := by
  simp only [render, report]
  split
  · rename_i hwidth
    simp [Except.map, Nat.not_le.2 hwidth]
  · rename_i hwidth
    simpa [Except.map] using Nat.not_lt.1 hwidth

end Diagnostic

end Lexing
