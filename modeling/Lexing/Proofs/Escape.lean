import Lexing.Text.Literal

/-!
Escapes in the body of a string literal, said without a scan: a character is escaped when an odd
number of backslashes stands directly before it. The quote that closes a literal is the first one
that is not escaped (`closingQuote?_eq_some_iff`), and there is none when every quote is
(`closingQuote?_eq_none_iff`). What is left of a text without a closing quote has none either, as
long as one goes on in the state that the text before it leaves (`QuotesEscaped.of_append`).
-/

namespace Lexing

/-- Whether a character after this text is escaped: the text ends in an odd number of
backslashes. -/
def isEscaped (before : List Char) : Bool :=
  (before.reverse.takeWhile (· = '\\')).length % 2 = 1

/-- Whether the next character is escaped after this text, when its first one is or is not. -/
def escapedAfter (escaped : Bool) (before : List Char) : Bool :=
  before.foldl (fun escaped c => !escaped && c = '\\') escaped

@[simp] theorem escapedAfter_nil (escaped : Bool) : escapedAfter escaped [] = escaped := rfl

@[simp] theorem escapedAfter_cons (escaped : Bool) (c : Char) (before : List Char) :
    escapedAfter escaped (c :: before) = escapedAfter (!escaped && c = '\\') before := rfl

theorem isEscaped_reverse_cons (c : Char) (before : List Char) :
    isEscaped (c :: before).reverse = (!isEscaped before.reverse && c = '\\') := by
  simp only [isEscaped, List.reverse_reverse]
  by_cases hc : c = '\\'
  · -- One more backslash turns an even number into an odd one and the other way round.
    simp only [hc, decide_true, List.takeWhile_cons_of_pos, List.length_cons, Bool.and_true]
    rw [← decide_not, decide_eq_decide]
    omega
  · simp [hc]

/-- Only the backslashes at the end of a text decide whether its next character is escaped. -/
theorem escapedAfter_false (before : List Char) : escapedAfter false before = isEscaped before := by
  have h : ∀ l : List Char, escapedAfter false l.reverse = isEscaped l.reverse := by
    intro l
    induction l with
    | nil => rfl
    | cons c l ih =>
      rw [isEscaped_reverse_cons, ← ih, List.reverse_cons, escapedAfter, List.foldl_append]
      rfl
  simpa using h before.reverse

/-! ## Texts without a closing quote -/

/-- Every quote in the text is escaped, when its first character is or is not. -/
def QuotesEscaped (escaped : Bool) (text : List Char) : Prop :=
  ∀ q r, text = q ++ '"' :: r → escapedAfter escaped q = true

theorem quotesEscaped_nil (escaped : Bool) : QuotesEscaped escaped [] := by
  intro q r h
  simp at h

theorem quotesEscaped_cons_iff {escaped : Bool} {c : Char} {text : List Char} :
    QuotesEscaped escaped (c :: text) ↔
      ¬(escaped = false ∧ c = '"') ∧ QuotesEscaped (!escaped && c = '\\') text := by
  constructor
  · intro h
    refine ⟨?_, fun q r hq => h (c :: q) r (by rw [hq, List.cons_append])⟩
    rintro ⟨rfl, rfl⟩
    simpa using h [] text rfl
  · rintro ⟨hc, h⟩ q r hq
    cases q with
    | nil =>
      obtain ⟨rfl, -⟩ := List.cons.inj hq
      simpa using hc
    | cons d q =>
      obtain ⟨rfl, htext⟩ := List.cons.inj hq
      exact h q r htext

/-- What follows a piece of such a text is such a text again. -/
theorem QuotesEscaped.of_append {escaped : Bool} {before text : List Char}
    (h : QuotesEscaped escaped (before ++ text)) :
    QuotesEscaped (escapedAfter escaped before) text := by
  induction before generalizing escaped with
  | nil => exact h
  | cons c before ih => exact ih (quotesEscaped_cons_iff.1 h).2

/-! ## The closing quote -/

theorem closingQuote?_cons (escaped : Bool) (c : Char) (rest : List Char) :
    closingQuote? escaped (c :: rest) =
      if escaped = false ∧ c = '"' then some 0
      else (closingQuote? (!escaped && c = '\\') rest).map (1 + ·) := by
  cases escaped with
  | true => simp [closingQuote?_true_cons]
  | false => simp [closingQuote?_false_cons]

/-- A literal stays open when every quote of its body is escaped. -/
theorem closingQuote?_eq_none_iff {escaped : Bool} {body : List Char} :
    closingQuote? escaped body = none ↔ QuotesEscaped escaped body := by
  induction body generalizing escaped with
  | nil => simpa using quotesEscaped_nil escaped
  | cons c rest ih =>
    rw [closingQuote?_cons, quotesEscaped_cons_iff]
    by_cases hc : escaped = false ∧ c = '"'
    · simp [hc]
    · rw [if_neg hc, Option.map_eq_none_iff, ih]
      exact ⟨fun h => ⟨hc, h⟩, fun h => h.2⟩

/-- The closing quote is the first quote that is not escaped. -/
theorem closingQuote?_eq_some_iff {escaped : Bool} {body : List Char} {i : Nat} :
    closingQuote? escaped body = some i ↔
      ∃ q r, body = q ++ '"' :: r ∧ q.length = i ∧ escapedAfter escaped q = false ∧
        QuotesEscaped escaped q := by
  induction body generalizing escaped i with
  | nil => simp
  | cons c rest ih =>
    rw [closingQuote?_cons]
    by_cases hc : escaped = false ∧ c = '"'
    · obtain ⟨rfl, rfl⟩ := hc
      rw [if_pos ⟨rfl, rfl⟩]
      constructor
      · intro h
        cases h
        exact ⟨[], rest, rfl, rfl, rfl, quotesEscaped_nil false⟩
      · rintro ⟨q, r, hbody, rfl, -, hq⟩
        cases q with
        | nil => rfl
        | cons d q =>
          obtain ⟨rfl, -⟩ := List.cons.inj hbody
          exact absurd ⟨rfl, rfl⟩ (quotesEscaped_cons_iff.1 hq).1
    · rw [if_neg hc, Option.map_eq_some_iff]
      constructor
      · rintro ⟨j, hj, rfl⟩
        obtain ⟨q, r, rfl, rfl, hesc, hq⟩ := ih.1 hj
        exact ⟨c :: q, r, rfl, Nat.add_comm _ _, hesc, quotesEscaped_cons_iff.2 ⟨hc, hq⟩⟩
      · rintro ⟨q, r, hbody, rfl, hesc, hq⟩
        cases q with
        | nil =>
          obtain ⟨rfl, -⟩ := List.cons.inj hbody
          exact absurd ⟨hesc, rfl⟩ hc
        | cons d q =>
          obtain ⟨rfl, rfl⟩ := List.cons.inj hbody
          have hj := ih.2 ⟨q, r, rfl, rfl, hesc, (quotesEscaped_cons_iff.1 hq).2⟩
          exact ⟨q.length, hj, Nat.add_comm _ _⟩

end Lexing
