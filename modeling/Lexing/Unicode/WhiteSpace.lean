import Lexing.Unicode.Ranges

/-!
White space (the property White_Space), twenty-five characters.
-/

namespace Lexing.Unicode

/-- The code points of white space. -/
def whiteSpaces : Ranges :=
    [(0x9, 0xD), (0x20, 0x20), (0x85, 0x85), (0xA0, 0xA0), (0x1680, 0x1680), (0x2000, 0x200A),
     (0x2028, 0x2029), (0x202F, 0x202F), (0x205F, 0x205F), (0x3000, 0x3000)]

/-- Whether the character is white space. -/
def isWhiteSpace (c : Char) : Bool :=
  whiteSpaces.covers c

theorem isWhiteSpace_of_isWhitespace {c : Char} (h : c.isWhitespace = true) :
    isWhiteSpace c = true := by
  simp only [Char.isWhitespace, Bool.or_eq_true, decide_eq_true_eq] at h
  rcases h with ((rfl | rfl) | rfl) | rfl <;> decide

/-- A line separator is white space, the invisible space of width zero is not. -/
example : isWhiteSpace (Char.ofNat 0x2028) = true ∧ isWhiteSpace (Char.ofNat 0x200B) = false := by
  decide

end Lexing.Unicode
