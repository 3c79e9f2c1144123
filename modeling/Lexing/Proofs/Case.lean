import Lexing.Proofs.Grammar
import Lexing.Proofs.Run

/-!
Case. The standard lexicon does not tell the two cases of a letter apart: the tokens of a text in lower
case are those of the text itself, at the same positions and with their values in lower case
(`Tokenizer.drain_lower`). Words have their values in lower case anyway, and of the other tokens only
literals and comments have letters in theirs.

Two sources that differ in nothing but the case of letters have one text in lower case, so that their
tokens agree (`tokenize_sameButCase`).
-/

namespace Lexing

/-! ## Characters -/

theorem isLower_toLower {c : Char} (h : c.isUpper = true) : c.toLower.isLower = true := by
  have hrange : c.val ≥ 'A'.val ∧ c.val ≤ 'Z'.val := of_decide_eq_true h
  have hval : c.toLower.val = c.val + 32 := congrArg Char.val (dif_pos hrange)
  have hupper : 65 ≤ c.val.toNat ∧ c.val.toNat ≤ 90 := hrange
  have hsum : c.toLower.val.toNat = c.val.toNat + 32 := by
    rw [hval, UInt32.toNat_add]
    exact Nat.mod_eq_of_lt (by simp only [UInt32.reduceToNat]; omega)
  have hlower : 97 ≤ c.toLower.val.toNat ∧ c.toLower.val.toNat ≤ 122 := by omega
  exact Bool.and_eq_true_iff.2 ⟨decide_eq_true hlower.1, decide_eq_true hlower.2⟩

theorem isUpper_eq_false_of_isLower {c : Char} (h : c.isLower = true) : c.isUpper = false := by
  have hlower : c.val ≥ 'a'.val := of_decide_eq_true (Bool.and_eq_true_iff.1 h).1
  exact decide_eq_false fun hc => absurd (UInt32.le_trans hlower hc.2) (by decide)

@[simp] theorem isAlpha_toLower (c : Char) : c.toLower.isAlpha = c.isAlpha := by
  cases h : c.isUpper with
  | true =>
    have hlower : c.toLower.isAlpha = true := Bool.or_eq_true_iff.2 (.inr (isLower_toLower h))
    have hupper : c.isAlpha = true := Bool.or_eq_true_iff.2 (.inl h)
    rw [hlower, hupper]
  | false => rw [toLower_of_not_isUpper h]

@[simp] theorem toLower_toLower (c : Char) : c.toLower.toLower = c.toLower := by
  cases h : c.isUpper with
  | true => exact toLower_of_not_isUpper (isUpper_eq_false_of_isLower (isLower_toLower h))
  | false => rw [toLower_of_not_isUpper h, toLower_of_not_isUpper h]

/-- Only one character becomes a given one that is no letter. -/
theorem toLower_eq_iff {c d : Char} (hd : d.isAlpha = false) : c.toLower = d ↔ c = d := by
  constructor
  · rintro rfl
    rw [isAlpha_toLower] at hd
    exact (toLower_eq_self hd).symm
  · rintro rfl
    exact toLower_eq_self hd

/-- Characters that differ in case alone are letters. -/
theorem eq_or_isAlpha_of_toLower_eq {c d : Char} (h : c.toLower = d.toLower) :
    c = d ∨ c.isAlpha = true ∧ d.isAlpha = true := by
  have halpha : c.isAlpha = d.isAlpha := by
    rw [← isAlpha_toLower c, h, isAlpha_toLower]
  by_cases hd : d.isAlpha = true
  · exact .inr ⟨halpha.trans hd, hd⟩
  · have hd : d.isAlpha = false := Bool.eq_false_iff.2 hd
    rw [toLower_eq_self hd] at h
    exact .inl ((toLower_eq_iff hd).1 h)

/-- The class holds both cases of a letter or neither. -/
def Caseless (p : Char → Bool) : Prop :=
  ∀ c, p c.toLower = p c

namespace Caseless

variable {p : Char → Bool} {rest : List Char}

/-- A class with all letters in it. -/
theorem of_forall_isAlpha (h : ∀ c, c.isAlpha = true → p c = true) : Caseless p := by
  intro c
  by_cases hc : c.isAlpha = true
  · rw [h c hc, h c.toLower (by simp [hc])]
  · rw [toLower_eq_self (Bool.eq_false_iff.2 hc)]

/-- A class with no letters in it. -/
theorem of_isAlpha_eq_false (h : ∀ c, p c = true → c.isAlpha = false) : Caseless p := by
  intro c
  by_cases hc : c.isAlpha = true
  · have hout : ∀ d, d.isAlpha = true → p d = false := by
      intro d hd
      rw [Bool.eq_false_iff]
      intro hp
      simp [h d hp] at hd
    rw [hout c hc, hout c.toLower (by simp [hc])]
  · rw [toLower_eq_self (Bool.eq_false_iff.2 hc)]

theorem isAlpha : Caseless Char.isAlpha := isAlpha_toLower

theorem isDigit : Caseless Char.isDigit :=
  of_isAlpha_eq_false fun _ => isAlpha_eq_false_of_isDigit

theorem isWordChar : Caseless isWordChar :=
  of_forall_isAlpha fun _ => isWordChar_of_isAlpha

theorem isLayout : Caseless isLayout := by
  refine of_isAlpha_eq_false fun c hc => ?_
  rcases isLayout_iff.1 hc with rfl | rfl | rfl <;> rfl

theorem isBlank : Caseless isBlank := by
  refine of_isAlpha_eq_false fun c hc => ?_
  rcases isLayout_iff.1 (isLayout_of_isBlank hc) with rfl | rfl | rfl <;> rfl

theorem ne_break : Caseless (· ≠ '\n') := by
  refine of_forall_isAlpha fun c hc => ?_
  have hne : c ≠ '\n' := by
    rintro rfl
    contradiction
  simpa using hne

theorem stops_lowered (hp : Caseless p) (h : Stops p rest) : Stops p (lowered rest) := by
  cases rest with
  | nil => exact h
  | cons c rest =>
    rw [stops_cons_iff] at h
    exact stops_cons_iff.2 ((hp c).trans h)

theorem forall_mem_lowered (hp : Caseless p) {w : List Char} (h : ∀ c ∈ w, p c = true) :
    ∀ c ∈ lowered w, p c = true := by
  intro c hc
  obtain ⟨d, hd, rfl⟩ := List.mem_map.1 hc
  exact (hp d).trans (h d hd)

end Caseless

/-! ## Texts -/

section Lowered

variable {w text : List Char}

@[simp] theorem lowered_append (v w : List Char) : lowered (v ++ w) = lowered v ++ lowered w :=
  List.map_append

@[simp] theorem lowered_lowered (text : List Char) : lowered (lowered text) = lowered text := by
  simp [lowered]

theorem lowered_eq_self (h : ∀ c ∈ w, c.isAlpha = false) : lowered w = w := by
  rw [lowered, List.map_congr_left fun c hc => toLower_eq_self (h c hc), List.map_id']

theorem mem_lowered_iff {c : Char} (hc : c.isAlpha = false) : c ∈ lowered text ↔ c ∈ text := by
  simp [lowered, toLower_eq_iff hc]

/-- What starts a text in lower case and has no letters starts the text. -/
theorem prefix_lowered_iff (h : ∀ c ∈ w, c.isAlpha = false) :
    w <+: lowered text ↔ w <+: text := by
  induction w generalizing text with
  | nil => simp
  | cons c w ih =>
    obtain ⟨hc, hw⟩ := List.forall_mem_cons.1 h
    cases text with
    | nil => simp [lowered]
    | cons d text =>
      have hd : c = d.toLower ↔ c = d := by rw [eq_comm, toLower_eq_iff hc, eq_comm]
      rw [lowered, List.map_cons, List.cons_prefix_cons, List.cons_prefix_cons, hd, ← lowered, ih hw]

theorem escapedAfter_lowered (escaped : Bool) (text : List Char) :
    escapedAfter escaped (lowered text) = escapedAfter escaped text := by
  induction text generalizing escaped with
  | nil => rfl
  | cons c text ih =>
    have hc : c.toLower = '\\' ↔ c = '\\' := toLower_eq_iff rfl
    rw [lowered, List.map_cons, escapedAfter_cons, escapedAfter_cons, ← lowered, ih]
    simp only [hc]

theorem QuotesEscaped.lowered {escaped : Bool} (h : QuotesEscaped escaped text) :
    QuotesEscaped escaped (lowered text) := by
  induction text generalizing escaped with
  | nil => exact h
  | cons c text ih =>
    have hquote : c.toLower = '"' ↔ c = '"' := toLower_eq_iff rfl
    have hslash : c.toLower = '\\' ↔ c = '\\' := toLower_eq_iff rfl
    obtain ⟨hc, htext⟩ := quotesEscaped_cons_iff.1 h
    refine quotesEscaped_cons_iff.2 ⟨by rwa [hquote], ?_⟩
    simp only [hslash]
    exact ih htext

end Lowered

/-! ## One token -/

/-- No symbol has a letter in it, nor has the mark of a comment. -/
theorem Lexicon.isAlpha_eq_false_of_mem_symbols {s : List Char}
    (h : s ∈ ['/', '/'] :: longSymbols ++ shortSymbols) : ∀ c ∈ s, c.isAlpha = false := by
  have hall : ∀ s ∈ ['/', '/'] :: longSymbols ++ shortSymbols,
      s.all (fun c => !c.isAlpha) = true := by decide
  simpa using hall s h

namespace Lexeme

open Lexicon

variable {l : Lexeme}

/-- The token in a text in lower case. -/
def lower (l : Lexeme) : Lexeme :=
  ⟨l.kind, lowered l.value, lowered l.span, lowered l.rest⟩

/-- A symbol of two characters that may start with `c` goes on with no letter. -/
theorem caseless_pair {table : List (List Char)}
    (h : ∀ s ∈ table, s ∈ ['/', '/'] :: longSymbols ++ shortSymbols) (c : Char) :
    Caseless fun d => table.contains [c, d] :=
  Caseless.of_isAlpha_eq_false fun d hd =>
    isAlpha_eq_false_of_mem_symbols (h _ (List.contains_iff_mem.1 hd)) d (by simp)

/-- A token of the grammar is one in lower case as well. -/
theorem Standard.lower (h : l.Standard) : l.lower.Standard := by
  cases h with
  | @comment blanks body rest blank line stops =>
    have hspan : lowered (blanks ++ '/' :: '/' :: body) =
        lowered blanks ++ '/' :: '/' :: lowered body := by
      rw [lowered_append]
      rfl
    have hline : '\n' ∉ lowered body := mt (mem_lowered_iff rfl).1 line
    rw [Lexeme.lower, hspan]
    exact .comment (Caseless.isBlank.forall_mem_lowered blank) hline
      (Caseless.ne_break.stops_lowered stops)
  | @whitespace c w rest layout stops noMark =>
    refine .whitespace (Caseless.isLayout.forall_mem_lowered layout)
      (Caseless.isLayout.stops_lowered stops) ?_
    intro blank hmark
    refine noMark ?_ ((prefix_lowered_iff (by simp)).1 hmark)
    intro d hd
    rw [← Caseless.isBlank d]
    exact blank _ (List.mem_map_of_mem hd)
  | newline => exact .newline
  | @keyword c w rest alpha word stops mem =>
    exact .keyword ((Caseless.isAlpha c).trans alpha) (Caseless.isWordChar.forall_mem_lowered word)
      (Caseless.isWordChar.stops_lowered stops) ((lowered_lowered (c :: w)).symm ▸ mem)
  | @name c w rest alpha word stops notMem =>
    exact .name ((Caseless.isAlpha c).trans alpha) (Caseless.isWordChar.forall_mem_lowered word)
      (Caseless.isWordChar.stops_lowered stops) ((lowered_lowered (c :: w)).symm ▸ notMem)
  | @label c w rest alpha word stops =>
    exact .label ((Caseless.isAlpha c).trans alpha) (Caseless.isWordChar.forall_mem_lowered word)
      (Caseless.isWordChar.stops_lowered stops)
  | @integer c w rest digits stops noFraction =>
    refine .integer (Caseless.isDigit.forall_mem_lowered digits)
      (Caseless.isDigit.stops_lowered stops) ?_
    intro d hd
    rw [Bool.eq_false_iff]
    intro hdigit
    have hletters : ∀ e ∈ ['.', d], e.isAlpha = false := by
      simp [isAlpha_eq_false_of_isDigit hdigit]
    rw [noFraction d ((prefix_lowered_iff hletters).1 hd)] at hdigit
    contradiction
  | @fraction c w d v rest digits decimals stops =>
    have hspan : lowered (c :: w ++ '.' :: d :: v) =
        c.toLower :: lowered w ++ '.' :: d.toLower :: lowered v := by
      rw [lowered_append]
      rfl
    rw [Lexeme.lower, hspan]
    exact .fraction (Caseless.isDigit.forall_mem_lowered digits)
      (Caseless.isDigit.forall_mem_lowered decimals) (Caseless.isDigit.stops_lowered stops)
  | @string q rest closed quotes =>
    have hspan : lowered ('"' :: q ++ ['"']) = '"' :: lowered q ++ ['"'] := by
      rw [lowered_append]
      rfl
    rw [Lexeme.lower, hspan]
    exact .string ((escapedAfter_lowered false q).trans closed) quotes.lowered
  | @pair c d rest mem =>
    have hpair : lowered [c, d] = [c, d] :=
      lowered_eq_self (isAlpha_eq_false_of_mem_symbols (by simp [mem]))
    rw [Lexeme.lower, hpair]
    exact .pair mem
  | @single c rest mem noPair =>
    have hsingle : lowered [c] = [c] :=
      lowered_eq_self (isAlpha_eq_false_of_mem_symbols (by simp [mem]))
    rw [Lexeme.lower, hsingle]
    exact .single mem ((caseless_pair (by simp +contextual) c).stops_lowered noPair)
  | @unknown c rest mark foreign noPair noLabel noLiteral =>
    have hc : lowered [c] = [c] := lowered_eq_self (by simpa using (isMark_iff.1 mark).2.2.1)
    rw [Lexeme.lower, hc]
    refine .unknown mark foreign ((caseless_pair (by simp +contextual) c).stops_lowered noPair) ?_ ?_
    · exact fun h => Caseless.isAlpha.stops_lowered (noLabel h)
    · exact fun h => (noLiteral h).lowered

/-- Of the tokens of the grammar only literals and comments have letters in their values that are not
in lower case. -/
theorem Standard.lowered_value (h : l.Standard) (hs : l.kind ≠ .string) (hc : l.kind ≠ .comment) :
    lowered l.value = l.value := by
  cases h with
  | comment => exact absurd rfl hc
  | string => exact absurd rfl hs
  | whitespace layout =>
    apply lowered_eq_self
    intro c hc
    rcases isLayout_iff.1 (layout c hc) with rfl | rfl | rfl <;> rfl
  | newline => rfl
  | keyword | name | label => exact lowered_lowered _
  | integer digits => exact lowered_eq_self fun c hc => isAlpha_eq_false_of_isDigit (digits c hc)
  | fraction digits decimals =>
    have hdigits := lowered_eq_self fun c hc => isAlpha_eq_false_of_isDigit (digits c hc)
    have hdecimals := lowered_eq_self fun c hc => isAlpha_eq_false_of_isDigit (decimals c hc)
    rw [lowered_append, hdigits]
    exact congrArg (_ ++ '.' :: ·) hdecimals
  | pair mem => exact lowered_eq_self (isAlpha_eq_false_of_mem_symbols (by simp [mem]))
  | single mem => exact lowered_eq_self (isAlpha_eq_false_of_mem_symbols (by simp [mem]))
  | unknown mark => exact lowered_eq_self (by simpa using (isMark_iff.1 mark).2.2.1)

/-- What the standard lexicon finds in a text in lower case is what it finds in the text. -/
theorem lexeme_lowered (text : List Char) :
    standard.lexeme (lowered text) = (standard.lexeme text).lower := by
  by_cases hne : text = []
  · subst hne
    rfl
  · have hlower := (standard_lexeme hne).lower.lexeme_eq
    rwa [Lexeme.lower, ← lowered_append, standard.span_append_rest] at hlower

end Lexeme

/-! ## All tokens -/

namespace Token

/-- The token with its value in lower case. -/
def lower (t : Token) : Token :=
  { t with value := String.ofList (lowered t.value.toList) }

/-- The tokens are the same but for the case of letters in literals and comments. -/
structure SameButCase (x y : Token) : Prop where
  kind_eq : x.kind = y.kind
  position_eq : x.position = y.position
  lowered_value_eq : lowered x.value.toList = lowered y.value.toList
  value_eq : x.kind ≠ .string → x.kind ≠ .comment → x.value = y.value

theorem SameButCase.eq_of_unknown {x y : Token} (h : x.SameButCase y) (hk : x.kind = .unknown) :
    x = y := by
  have hvalue : x.value = y.value := h.value_eq (by simp [hk]) (by simp [hk])
  obtain ⟨kind, value, position⟩ := x
  obtain ⟨kind', value', position'⟩ := y
  cases h.kind_eq
  cases h.position_eq
  cases hvalue
  rfl

theorem sameButCase_of_lower_eq {x y : Token} (h : x.lower = y.lower)
    (hx : x.kind ≠ .string → x.kind ≠ .comment → x.lower = x)
    (hy : y.kind ≠ .string → y.kind ≠ .comment → y.lower = y) : x.SameButCase y := by
  have hkind : x.kind = y.kind := congrArg (·.kind) h
  refine ⟨hkind, congrArg (·.position) h, ?_, ?_⟩
  · have hvalue := congrArg (·.value.toList) h
    simpa [lower] using hvalue
  · intro hs hc
    rw [← hx hs hc, h, hy (hkind ▸ hs) (hkind ▸ hc)]

/-- The first unknown token does not depend on case. -/
theorem find?_unknown_eq {xs ys : List Token} (h : List.Forall₂ SameButCase xs ys) :
    xs.find? (·.kind = .unknown) = ys.find? (·.kind = .unknown) := by
  induction h with
  | nil => rfl
  | @cons x y xs ys hxy _ ih =>
    by_cases hk : x.kind = .unknown
    · rw [← hxy.eq_of_unknown hk, List.find?_cons_of_pos (by simpa using hk),
        List.find?_cons_of_pos (by simpa using hk)]
    · have hk' : y.kind ≠ .unknown := hxy.kind_eq ▸ hk
      rw [List.find?_cons_of_neg (by simpa using hk), List.find?_cons_of_neg (by simpa using hk'),
        ih]

end Token

namespace Tokenizer

variable {t u : Tokenizer}

/-- The tokenizer before the same text in lower case. -/
def lower (t : Tokenizer) : Tokenizer :=
  { t with rest := lowered t.rest }

theorem nextToken_lower (hL : t.lexicon = .standard) :
    t.lower.nextToken = (t.nextToken.1.lower, t.nextToken.2.lower) := by
  simp [nextToken, lower, Token.lower, hL, Lexeme.lexeme_lowered, Lexeme.lower, Position.after]

theorem next?_lower {token : Token} (hL : t.lexicon = .standard)
    (hn : t.next? = some (token, u)) : t.lower.next? = some (token.lower, u.lower) := by
  obtain ⟨hf, rfl, rfl⟩ := next?_eq_some hn
  have hfinished : t.lower.finished = false := hf
  rw [next?, nextToken_lower hL, hfinished]
  rfl

/-- The tokens of a text in lower case are those of the text, in lower case. -/
theorem drain_lower (hL : t.lexicon = .standard) :
    t.lower.drain.1 = t.drain.1.map Token.lower := by
  have hlower : List.Forall₂ (fun x y => x.lower = y) t.drain.1 t.lower.drain.1 := by
    refine drain_lockstep (S := fun t u => t.lexicon = .standard ∧ u = t.lower) ?_ ?_ ⟨hL, rfl⟩
    · rintro t _ ⟨-, rfl⟩ hn
      rw [next?_eq_none_iff] at hn ⊢
      exact hn
    · rintro t _ token u ⟨hL, rfl⟩ hn
      exact ⟨_, _, next?_lower hL hn, rfl, (lexicon_of_next? hn).trans hL, rfl⟩
  rw [← List.forall₂_map_left_iff, List.forall₂_eq_eq_eq] at hlower
  exact hlower.symm

/-- A token that is neither a literal nor a comment is in lower case. -/
theorem lower_nextToken (hL : t.lexicon = .standard) (hs : t.nextToken.1.kind ≠ .string)
    (hc : t.nextToken.1.kind ≠ .comment) : t.nextToken.1.lower = t.nextToken.1 := by
  have hvalue : lowered (Lexicon.standard.lexeme t.rest).value =
      (Lexicon.standard.lexeme t.rest).value := by
    simp only [nextToken, hL] at hs hc
    by_cases hne : t.rest = []
    · rw [hne]
      rfl
    · exact (Lexeme.standard_lexeme hne).lowered_value hs hc
  simp [nextToken, Token.lower, hL, hvalue]

theorem lower_of_mem_drain (hL : t.lexicon = .standard) {token : Token} (h : token ∈ t.drain.1)
    (hs : token.kind ≠ .string) (hc : token.kind ≠ .comment) : token.lower = token := by
  obtain ⟨u, hu, rfl⟩ := exists_of_mem_drain h
  exact lower_nextToken (hu.trans hL) hs hc

end Tokenizer

/-- Sources that differ in nothing but the case of letters have the same tokens at the same positions,
but for the case of letters in literals and comments; and strict reading accepts both or refuses both
with the same error. -/
theorem tokenize_sameButCase (s s' : String) (h : lowered s.toList = lowered s'.toList) :
    List.Forall₂ Token.SameButCase (tokenize s) (tokenize s') ∧
      ((∃ tokens tokens', tokenizeStrict s = .ok tokens ∧ tokenizeStrict s' = .ok tokens') ∨
        ∃ d, tokenizeStrict s = .error d ∧ tokenizeStrict s' = .error d) := by
  have hlower : (tokenize s).map Token.lower = (tokenize s').map Token.lower := by
    have hload : (Tokenizer.load {} s).lower = (Tokenizer.load {} s').lower := by
      simp only [Tokenizer.lower, Tokenizer.load, h]
    have hs := @Tokenizer.drain_lower (Tokenizer.load {} s) rfl
    have hs' := @Tokenizer.drain_lower (Tokenizer.load {} s') rfl
    rw [hload] at hs
    exact hs.symm.trans hs'
  have hsame : List.Forall₂ Token.SameButCase (tokenize s) (tokenize s') := by
    rw [← List.forall₂_eq_eq_eq, List.forall₂_map_left_iff, List.forall₂_map_right_iff,
      List.forall₂_iff_zip] at hlower
    refine List.forall₂_iff_zip.2 ⟨hlower.1, ?_⟩
    intro x y hxy
    obtain ⟨hx, hy⟩ := List.of_mem_zip hxy
    exact Token.sameButCase_of_lower_eq (hlower.2 hxy) (Tokenizer.lower_of_mem_drain rfl hx)
      (Tokenizer.lower_of_mem_drain rfl hy)
  refine ⟨hsame, ?_⟩
  rw [tokenizeStrict_eq, tokenizeStrict_eq, Token.find?_unknown_eq hsame]
  cases (tokenize s').find? (·.kind = .unknown) with
  | none => exact .inl ⟨_, _, rfl, rfl⟩
  | some token => exact .inr ⟨_, rfl, rfl⟩

/-- Case goes through keywords, labels, literals and comments, and the letter that is not ASCII is
refused in both sources. -/
theorem tokenize_sameButCase_of_error :
    let s := "IF :Ab \"Q\\\"r\" é // Note"
    let s' := "if :aB \"q\\\"R\" é // noTE"
    lowered s.toList = lowered s'.toList ∧ s ≠ s' ∧
      tokenize s =
        [⟨.keyword, "if", ⟨1, 1⟩⟩, ⟨.whitespace, " ", ⟨1, 3⟩⟩, ⟨.identifier, ":ab", ⟨1, 4⟩⟩,
          ⟨.whitespace, " ", ⟨1, 7⟩⟩, ⟨.string, "Q\\\"r", ⟨1, 8⟩⟩, ⟨.whitespace, " ", ⟨1, 14⟩⟩,
          ⟨.unknown, "é", ⟨1, 15⟩⟩, ⟨.comment, " Note", ⟨1, 16⟩⟩, ⟨.endOfInput, "", ⟨1, 24⟩⟩] ∧
      tokenize s' =
        [⟨.keyword, "if", ⟨1, 1⟩⟩, ⟨.whitespace, " ", ⟨1, 3⟩⟩, ⟨.identifier, ":ab", ⟨1, 4⟩⟩,
          ⟨.whitespace, " ", ⟨1, 7⟩⟩, ⟨.string, "q\\\"R", ⟨1, 8⟩⟩, ⟨.whitespace, " ", ⟨1, 14⟩⟩,
          ⟨.unknown, "é", ⟨1, 15⟩⟩, ⟨.comment, " noTE", ⟨1, 16⟩⟩, ⟨.endOfInput, "", ⟨1, 24⟩⟩] ∧
      tokenizeStrict s = .error ⟨.unrecognisedToken "é", ⟨1, 15⟩⟩ ∧
      List.Forall₂ Token.SameButCase (tokenize s) (tokenize s') ∧
      ((∃ tokens tokens', tokenizeStrict s = .ok tokens ∧ tokenizeStrict s' = .ok tokens') ∨
        ∃ d, tokenizeStrict s = .error d ∧ tokenizeStrict s' = .error d) :=
  ⟨by decide, by decide, by decide +kernel, by decide +kernel, by decide +kernel,
    tokenize_sameButCase _ _ (by decide)⟩

end Lexing
