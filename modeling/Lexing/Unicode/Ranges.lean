/-!
Sets of characters as closed ranges of code points, the form in which the properties of the Unicode
character database are listed here (version 17.0).
-/

namespace Lexing.Unicode

/-- A set of code points, as the first and the last member of each range, in ascending order. -/
abbrev Ranges := List (Nat × Nat)

/-- Whether one of the ranges covers the character. -/
def Ranges.covers (ranges : Ranges) (c : Char) : Bool :=
  ranges.any fun r => r.1 ≤ c.toNat && c.toNat ≤ r.2

theorem Ranges.covers_iff {ranges : Ranges} {c : Char} :
    ranges.covers c = true ↔ ∃ r ∈ ranges, r.1 ≤ c.toNat ∧ c.toNat ≤ r.2 := by
  simp [covers, List.any_eq_true]

end Lexing.Unicode
