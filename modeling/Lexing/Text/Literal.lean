/-!
The end of a string literal. A double quote closes a literal unless it is escaped, and a backslash
escapes whatever character stands after it, another backslash included. Escapes are passed over and
not decoded.
-/

namespace Lexing

/-- The index of the first double quote in the body of a string literal that is not escaped. A
backslash escapes the character after it; `escaped` says that the body starts after one. -/
def closingQuote? (escaped : Bool) (body : List Char) : Option Nat :=
  go escaped 0 body
where
  /-- Searches what is left of the body after `i` characters. -/
  go (escaped : Bool) (i : Nat) : List Char → Option Nat
    | [] => none
    | c :: rest =>
      if escaped then go false (i + 1) rest
      else if c = '"' then some i
      else go (c = '\\') (i + 1) rest

theorem closingQuote?.go_eq (escaped : Bool) (i : Nat) (body : List Char) :
    closingQuote?.go escaped i body = (closingQuote? escaped body).map (i + ·) := by
  unfold closingQuote?
  induction body generalizing escaped i with
  | nil => rfl
  | cons c rest ih =>
    simp only [closingQuote?.go]
    split
    · rw [ih false (i + 1), ih false (0 + 1)]
      simp [Function.comp_def, Nat.add_assoc]
    · split
      · rfl
      · rw [ih _ (i + 1), ih _ (0 + 1)]
        simp [Function.comp_def, Nat.add_assoc]

@[simp] theorem closingQuote?_nil (escaped : Bool) : closingQuote? escaped [] = none := rfl

/-- An escaped character closes nothing. -/
theorem closingQuote?_true_cons (c : Char) (rest : List Char) :
    closingQuote? true (c :: rest) = (closingQuote? false rest).map (1 + ·) := by
  rw [closingQuote?, closingQuote?.go, if_pos rfl, closingQuote?.go_eq]

theorem closingQuote?_false_cons (c : Char) (rest : List Char) :
    closingQuote? false (c :: rest) =
      if c = '"' then some 0 else (closingQuote? (c = '\\') rest).map (1 + ·) := by
  rw [closingQuote?, closingQuote?.go, if_neg (by decide)]
  split
  · rfl
  · rw [closingQuote?.go_eq]

/-- The index is that of a double quote. -/
theorem eq_of_closingQuote? {escaped : Bool} {body : List Char} {i : Nat}
    (h : closingQuote? escaped body = some i) :
    body = body.take i ++ '"' :: body.drop (i + 1) := by
  induction body generalizing escaped i with
  | nil => contradiction
  | cons c rest ih =>
    cases escaped with
    | true =>
      rw [closingQuote?_true_cons] at h
      obtain ⟨j, hj, rfl⟩ := Option.map_eq_some_iff.1 h
      simpa [Nat.add_comm 1 j] using ih hj
    | false =>
      rw [closingQuote?_false_cons] at h
      split at h
      · rename_i hc
        cases h
        simp [hc]
      · obtain ⟨j, hj, rfl⟩ := Option.map_eq_some_iff.1 h
        simpa [Nat.add_comm 1 j] using ih hj

example : closingQuote? false "say \\\"hi\\\" \" + x".toList = some 11 := by decide

end Lexing
