import Lexing.Diagnostic
import Lexing.Tokenizer

/-!
Strict reading: a source is refused at its first unknown token.
-/

namespace Lexing

namespace Tokenizer

/-- The tokens that a scan has accepted, or why it has refused one. -/
def Scan.result {α : Type} (s : Scan α) : Except Diagnostic (List Token) :=
  match s.refused? with
  | none => .ok s.tokens
  | some token => .error (.ofUnknown token)

theorem Scan.result_cons {α : Type} (token : Token) (notes : List α) (s : Scan α) :
    (s.cons token notes).result = s.result.map (token :: ·) := by
  rw [result, result, cons]
  cases s.refused? <;> rfl

/-- All tokens that `next?` still gives, unless one of them is unknown; the first of these is
refused, and no token after it is looked at. -/
def drainStrict (t : Tokenizer) : Except Diagnostic (List Token) :=
  (t.scan true silent).result

theorem drainStrict_of_next?_eq_none {t : Tokenizer} (h : t.next? = none) :
    t.drainStrict = .ok [] := by
  rw [drainStrict, scan_of_next?_eq_none h]
  rfl

theorem drainStrict_of_next?_eq_some {t u : Tokenizer} {token : Token}
    (h : t.next? = some (token, u)) :
    t.drainStrict =
      if token.kind = .unknown then .error (.ofUnknown token)
      else u.drainStrict.map (token :: ·) := by
  have hrefused : refuses true token = true ↔ token.kind = .unknown := by simp [refuses]
  rw [drainStrict, scan_of_next?_eq_some h]
  by_cases hk : token.kind = .unknown
  · rw [if_pos (hrefused.2 hk), if_pos hk]
    rfl
  · rw [if_neg (mt hrefused.1 hk), if_neg hk, Scan.result_cons, drainStrict]

/-- Strict reading gives what reading gives, unless a token is unknown. -/
theorem drainStrict_eq (t : Tokenizer) :
    t.drainStrict =
      match t.drain.1.find? (·.kind = .unknown) with
      | none => .ok t.drain.1
      | some token => .error (.ofUnknown token) := by
  induction t using next_induction with
  | ended t h =>
    rw [drainStrict_of_next?_eq_none h, drain_of_next?_eq_none h]
    rfl
  | step t token u h ih =>
    rw [drainStrict_of_next?_eq_some h, drain_of_next?_eq_some h]
    by_cases hk : token.kind = .unknown
    · rw [if_pos hk, List.find?_cons_of_pos (by simpa using hk)]
    · rw [if_neg hk, List.find?_cons_of_neg (by simpa using hk), ih]
      cases u.drain.1.find? (·.kind = .unknown) <;> rfl

theorem result_scan_lenient (t : Tokenizer) : (t.scan false silent).result = .ok t.drain.1 := by
  induction t using next_induction with
  | ended t h =>
    rw [scan_of_next?_eq_none h, drain_of_next?_eq_none h]
    rfl
  | step t token u h ih =>
    rw [scan_of_next?_eq_some h, drain_of_next?_eq_some h, if_neg (by simp [refuses]),
      Scan.result_cons, ih]
    rfl

/-- Whatever is noted, a scan comes to the same result. -/
theorem result_scan {α : Type} (strict : Bool) (note : Tokenizer → Token → List α) (t : Tokenizer) :
    (t.scan strict note).result = if strict then t.drainStrict else .ok t.drain.1 := by
  have hresult : (t.scan strict note).result = (t.scan strict silent).result := by
    rw [← silenced_scan strict note]
    rfl
  rw [hresult]
  cases strict with
  | true => rfl
  | false => exact result_scan_lenient t

end Tokenizer

/-- The tokens of the source in this lexicon, if all of them are known. -/
def Lexicon.tokenizeStrict (L : Lexicon) (source : String) : Except Diagnostic (List Token) :=
  (Tokenizer.load { lexicon := L } source).drainStrict

/-- The tokens of the source, if all of them are known. -/
def tokenizeStrict (source : String) : Except Diagnostic (List Token) :=
  Lexicon.standard.tokenizeStrict source

theorem tokenizeStrict_eq (source : String) :
    tokenizeStrict source =
      match (tokenize source).find? (·.kind = .unknown) with
      | none => .ok (tokenize source)
      | some token => .error (.ofUnknown token) :=
  Tokenizer.drainStrict_eq _

end Lexing
