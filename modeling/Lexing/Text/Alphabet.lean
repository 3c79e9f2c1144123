/-!
The classes of characters that the language distinguishes. All of them lie within ASCII; a letter
of any other script belongs to none.
-/

namespace Lexing

/-- A character that indents: a space or a tab. -/
def isBlank (c : Char) : Bool :=
  c == ' ' || c == '\t'

/-- A character of which runs of whitespace are made: a blank or a carriage return. -/
def isLayout (c : Char) : Bool :=
  isBlank c || c == '\r'

/-- A character of a word: a letter, a digit or an underscore. -/
def isWordChar (c : Char) : Bool :=
  c.isAlphanum || c == '_'

/-- The text with its letters in lower case. -/
def lowered (text : List Char) : List Char :=
  text.map Char.toLower

@[simp] theorem length_lowered (text : List Char) : (lowered text).length = text.length := by
  simp [lowered]

theorem isLayout_of_isBlank {c : Char} (h : isBlank c = true) : isLayout c = true := by
  simp [isLayout, h]

theorem isWordChar_of_isAlpha {c : Char} (h : c.isAlpha = true) : isWordChar c = true := by
  simp [isWordChar, Char.isAlphanum, h]

theorem isWordChar_of_isDigit {c : Char} (h : c.isDigit = true) : isWordChar c = true := by
  simp [isWordChar, Char.isAlphanum, h]

/-! ## Runs -/

/-- The number of characters at the start of the text that satisfy `p`. -/
def runLength (p : Char → Bool) (text : List Char) : Nat :=
  (text.takeWhile p).length

theorem runLength_le (p : Char → Bool) (text : List Char) : runLength p text ≤ text.length :=
  (List.takeWhile_prefix p).length_le

theorem runLength_cons (p : Char → Bool) (c : Char) (text : List Char) :
    runLength p (c :: text) = if p c then runLength p text + 1 else 0 := by
  by_cases hc : p c = true <;> simp [runLength, hc]

theorem runLength_pos_iff {p : Char → Bool} {c : Char} {text : List Char} :
    0 < runLength p (c :: text) ↔ p c = true := by
  rw [runLength_cons]
  split <;> simp_all

theorem take_runLength (p : Char → Bool) (text : List Char) :
    text.take (runLength p text) = text.takeWhile p := by
  have h := List.takeWhile_append_dropWhile (p := p) (l := text)
  rw [runLength]
  conv => lhs; arg 2; rw [← h]
  rw [List.take_left]

theorem drop_runLength (p : Char → Bool) (text : List Char) :
    text.drop (runLength p text) = text.dropWhile p := by
  have h := List.takeWhile_append_dropWhile (p := p) (l := text)
  rw [runLength]
  conv => lhs; arg 2; rw [← h]
  rw [List.drop_left]

end Lexing
