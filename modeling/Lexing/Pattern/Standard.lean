import Lexing.Pattern
import Lexing.Text.Alphabet
import Lexing.Text.Line

/-!
The patterns of the standard lexicon. A comment is introduced by `//`, possibly after blanks, and
runs to the end of its line; its group is the text after the mark. An identifier is a letter and all
word characters after it, possibly after a colon. A number is a run of digits, with a fraction when
digits follow its point.

Each of them matches only at the start of the text.
-/

namespace Lexing.Pattern

/-- The pattern that matches at the start of a text as many characters as `length` says, and nothing
when that is none. -/
def ofLength (length : List Char → Nat) (le : ∀ text, length text ≤ text.length) : Pattern :=
  anchored (fun text => if length text = 0 then none else some ⟨⟨0, length text⟩, none⟩)
    (fun text m h => by
      split at h
      · contradiction
      · cases h
        rfl)
    (fun text m h => by
      split at h
      · contradiction
      · cases h
        exact ⟨Nat.zero_le _, le text, by simp⟩)

theorem leading?_ofLength (length : List Char → Nat) (le : ∀ text, length text ≤ text.length)
    (text : List Char) :
    (ofLength length le).leading? text =
      if length text = 0 then none else some ⟨⟨0, length text⟩, none⟩ := by
  rw [ofLength, leading?_anchored]
  split <;> simp_all

/-! ## Lengths -/

/-- The length of the letter and the word characters after it that the text starts with. -/
def nameLength : List Char → Nat
  | [] => 0
  | c :: text => if c.isAlpha then runLength isWordChar (c :: text) else 0

theorem nameLength_le (text : List Char) : nameLength text ≤ text.length := by
  cases text with
  | nil => exact Nat.le_refl 0
  | cons c text =>
    rw [nameLength]
    split
    · exact runLength_le _ _
    · exact Nat.zero_le _

/-- The length of the name that the text starts with, with the colon before it if there is one. -/
def identifierLength : List Char → Nat
  | [] => 0
  | c :: text =>
    if c = ':' then (if nameLength text = 0 then 0 else nameLength text + 1)
    else nameLength (c :: text)

theorem identifierLength_le (text : List Char) : identifierLength text ≤ text.length := by
  cases text with
  | nil => exact Nat.le_refl 0
  | cons c text =>
    have := nameLength_le text
    have := nameLength_le (c :: text)
    simp only [identifierLength, List.length_cons] at *
    split
    · split <;> omega
    · assumption

/-- The length of a fraction: a point and the digits after it, or nothing when there are none. -/
def fractionLength : List Char → Nat
  | [] => 0
  | c :: text =>
    if c = '.' ∧ runLength Char.isDigit text ≠ 0 then runLength Char.isDigit text + 1 else 0

theorem fractionLength_le (text : List Char) : fractionLength text ≤ text.length := by
  cases text with
  | nil => exact Nat.le_refl 0
  | cons c text =>
    have := runLength_le Char.isDigit text
    simp only [fractionLength, List.length_cons]
    split <;> omega

/-- The length of the number that the text starts with. -/
def numberLength (text : List Char) : Nat :=
  if runLength Char.isDigit text = 0 then 0
  else runLength Char.isDigit text + fractionLength (text.drop (runLength Char.isDigit text))

theorem numberLength_le (text : List Char) : numberLength text ≤ text.length := by
  have := runLength_le Char.isDigit text
  have := fractionLength_le (text.drop (runLength Char.isDigit text))
  simp only [numberLength, List.length_drop] at *
  split <;> omega

/-- The text after a comment mark, if the text starts with one. -/
def afterCommentMark? : List Char → Option (List Char)
  | '/' :: '/' :: body => some body
  | _ => none

theorem eq_of_afterCommentMark? {text body : List Char} (h : afterCommentMark? text = some body) :
    text = '/' :: '/' :: body := by
  unfold afterCommentMark? at h
  split at h
  · cases h; rfl
  · contradiction

/-! ## Patterns -/

/-- Where a comment and its text are, given the number of blanks before its mark and the text after
the mark. -/
def commentMatch (blanks : Nat) (body : List Char) : Match :=
  let stop := blanks + 2 + (firstLine body).length
  ⟨⟨0, stop⟩, some ⟨blanks + 2, stop⟩⟩

/-- A comment: blanks, the mark `//` and the rest of the line, which is the group. -/
def comment : Pattern :=
  anchored
    (fun text =>
      (afterCommentMark? (text.dropWhile isBlank)).map (commentMatch (runLength isBlank text)))
    (fun text m h => by
      obtain ⟨body, -, rfl⟩ := Option.map_eq_some_iff.1 h
      rfl)
    (fun text m h => by
      obtain ⟨body, hb, rfl⟩ := Option.map_eq_some_iff.1 h
      have hlen : text.length = runLength isBlank text + (body.length + 2) := by
        have := congrArg List.length (List.takeWhile_append_dropWhile (p := isBlank) (l := text))
        rw [eq_of_afterCommentMark? hb, List.length_append] at this
        exact this.symm
      have hbody : (firstLine body).length ≤ body.length := (List.takeWhile_prefix _).length_le
      refine ⟨Nat.zero_le _, ?_, ?_⟩
      · simp only [commentMatch]
        omega
      · intro g hg
        cases hg
        simp only [commentMatch]
        omega)

/-- An identifier: a name, possibly after a colon. -/
def identifier : Pattern :=
  ofLength identifierLength identifierLength_le

/-- A number: digits, possibly with a fraction. -/
def number : Pattern :=
  ofLength numberLength numberLength_le

end Lexing.Pattern
