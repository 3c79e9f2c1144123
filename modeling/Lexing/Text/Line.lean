/-!
Lines of a source text. A line break is the character `\n`; a carriage return before it belongs to
the line but is left out of an excerpt. A text has one line more than it has breaks, so a text that
ends in a break has an empty last line.
-/

namespace Lexing

/-- What follows the first `n` line breaks of the text, if it has that many. -/
def dropLines? : Nat → List Char → Option (List Char)
  | 0, text => some text
  | _ + 1, [] => none
  | n + 1, c :: text => if c = '\n' then dropLines? n text else dropLines? (n + 1) text

@[simp] theorem dropLines?_zero (text : List Char) : dropLines? 0 text = some text := by
  cases text <;> rfl

@[simp] theorem dropLines?_succ_nil (n : Nat) : dropLines? (n + 1) [] = none := rfl

theorem dropLines?_succ_cons (n : Nat) (c : Char) (text : List Char) :
    dropLines? (n + 1) (c :: text) =
      if c = '\n' then dropLines? n text else dropLines? (n + 1) text := rfl

/-- The part of the text before its first line break. -/
def firstLine (text : List Char) : List Char :=
  text.takeWhile (· ≠ '\n')

/-- The line without one carriage return at its end. -/
def dropReturn (line : List Char) : List Char :=
  if line.getLast? = some '\r' then line.dropLast else line

/-- The given line of the text, counted from one, without its line break. -/
def lineExcerpt? (source : List Char) : Nat → Option (List Char)
  | 0 => none
  | n + 1 => (dropLines? n source).map fun text => dropReturn (firstLine text)

/-! A piece without line breaks at the start of a text lengthens its first line, and moves no other. -/

theorem firstLine_append {w : List Char} (h : '\n' ∉ w) (text : List Char) :
    firstLine (w ++ text) = w ++ firstLine text := by
  apply List.takeWhile_append_of_pos
  intro c hc
  have : c ≠ '\n' := fun heq => h (heq ▸ hc)
  simpa using this

theorem dropLines?_succ_append {w : List Char} (h : '\n' ∉ w) (n : Nat) (text : List Char) :
    dropLines? (n + 1) (w ++ text) = dropLines? (n + 1) text := by
  induction w with
  | nil => rfl
  | cons c w ih =>
    obtain ⟨hc, hw⟩ := List.ne_and_not_mem_of_not_mem_cons h
    rw [List.cons_append, dropLines?_succ_cons, if_neg hc.symm, ih hw]

theorem dropLines?_isSome_iff {n : Nat} {text : List Char} :
    (dropLines? n text).isSome = true ↔ n ≤ text.count '\n' := by
  -- Along the text, every break that is passed lowers both sides by one.
  fun_induction dropLines? n text with
  | case1 => simp
  | case2 n => simp
  | case3 n text ih => simp [ih]
  | case4 n c text hc ih => simp [ih, hc]

/-- A text has exactly the lines from the first to the one after its last break. -/
theorem lineExcerpt?_isSome_iff {source : List Char} {line : Nat} :
    (lineExcerpt? source line).isSome = true ↔ 1 ≤ line ∧ line ≤ source.count '\n' + 1 := by
  cases line with
  | zero => simp [lineExcerpt?]
  | succ n => simp [lineExcerpt?, dropLines?_isSome_iff]

example : lineExcerpt? "one\r\n\nthree".toList 1 = some "one".toList := by decide

example : lineExcerpt? "one\r\n\nthree".toList 4 = none := by decide

end Lexing
