/-!
Positions in a source text: a line and a column, both counted from one. Columns count characters.
Positions are ordered by line, and by column within a line.
-/

namespace Lexing

/-- A place in a source text. -/
structure Position where
  line : Nat
  column : Nat
deriving DecidableEq, Repr

namespace Position

/-- The first character of a text. -/
def start : Position := ⟨1, 1⟩

instance : Inhabited Position := ⟨start⟩

/-- The position `n` columns to the right. -/
def right (p : Position) (n : Nat) : Position :=
  { p with column := p.column + n }

/-- The position `n` columns to the left, but never left of column 0. -/
def left (p : Position) (n : Nat) : Position :=
  { p with column := p.column - n }

/-- The first column of the line below. -/
def nextLine (p : Position) : Position :=
  ⟨p.line + 1, 1⟩

@[simp] theorem line_right (p : Position) (n : Nat) : (p.right n).line = p.line := rfl

@[simp] theorem column_right (p : Position) (n : Nat) : (p.right n).column = p.column + n := rfl

@[simp] theorem right_zero (p : Position) : p.right 0 = p := rfl

theorem right_right (p : Position) (m n : Nat) : (p.right m).right n = p.right (m + n) := by
  simp [right, Nat.add_assoc]

/-! ## Order -/

instance : Ord Position where
  compare p q := (compare p.line q.line).then (compare p.column q.column)

instance : LT Position := ltOfOrd

instance : LE Position := leOfOrd

theorem compare_eq (p q : Position) :
    compare p q = (compare p.line q.line).then (compare p.column q.column) := rfl

theorem lt_iff {p q : Position} :
    p < q ↔ p.line < q.line ∨ p.line = q.line ∧ p.column < q.column := by
  change compare p q = .lt ↔ _
  rw [compare_eq, Ordering.then_eq_lt, Nat.compare_eq_lt, Nat.compare_eq_eq, Nat.compare_eq_lt]

theorem lt_right {p : Position} {n : Nat} (h : 0 < n) : p < p.right n :=
  lt_iff.2 (.inr ⟨rfl, Nat.lt_add_of_pos_right h⟩)

theorem lt_nextLine (p : Position) : p < p.nextLine :=
  lt_iff.2 (.inl (Nat.lt_succ_self _))

/-! ## Text -/

/-- The form used in token lines and in messages. -/
protected def toString (p : Position) : String :=
  "Line: " ++ toString p.line ++ ", Column: " ++ toString p.column

instance : ToString Position := ⟨Position.toString⟩

end Position

end Lexing
