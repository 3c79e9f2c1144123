import Lexing.Pattern.Search
import Lexing.Pattern.Standard

/-!
Programs of the standard patterns, run on any text. The threads at a place depend on hardly anything
of the text before it, so that a program has but a few fronts, and it is enough to say to which one
a character leads from each of them. A run is then followed by induction along the text; a front
that comes back as long as characters of a class follow is done once and for all (`run_loop`).

What the runs find is what the standard patterns match (`matchAt?_comment`, `matchAt?_identifier`,
`matchAt?_number`) or a run of characters of one class (`matchAt?_repeated`).
-/

namespace Lexing

/-! ## Sets of characters -/

namespace CharSet

/-- The blanks. -/
def blanks : CharSet :=
  (empty.add ' ').add '\t'

/-- The blanks and the carriage return. -/
def layout : CharSet :=
  blanks.add '\r'

/-- The letters. -/
def letters : CharSet :=
  (empty.insert 'a' 'z').insert 'A' 'Z'

/-- The digits. -/
def digits : CharSet :=
  empty.insert '0' '9'

/-- The letters, the digits and the underscore. -/
def wordChars : CharSet :=
  (letters.insert '0' '9').add '_'

/-- All characters but the line break. -/
def noBreak : CharSet :=
  (single '\n').complement

theorem ascending_blanks : blanks.Ascending :=
  (ascending_empty.add _).add _

theorem ascending_letters : letters.Ascending :=
  (ascending_empty.insert (by decide)).insert (by decide)

theorem contains_blanks : blanks.contains = isBlank := by
  ext c
  rw [Bool.eq_iff_iff, blanks, contains_add (ascending_empty.add _), contains_add ascending_empty]
  simp [isBlank, or_comm]

theorem contains_layout : layout.contains = isLayout := by
  ext c
  rw [Bool.eq_iff_iff, layout, contains_add ascending_blanks, contains_blanks]
  simp [isLayout, or_comm]

theorem contains_digits : digits.contains = Char.isDigit := by
  ext c
  rw [Bool.eq_iff_iff, digits, contains_insert ascending_empty (by decide)]
  simp [Char.isDigit, Char.le_def]

theorem contains_letters : letters.contains = Char.isAlpha := by
  ext c
  rw [Bool.eq_iff_iff, letters, contains_insert (ascending_empty.insert (by decide)) (by decide),
    contains_insert ascending_empty (by decide)]
  show ('A' ≤ c ∧ c ≤ 'Z') ∨ ('a' ≤ c ∧ c ≤ 'z') ∨ empty.contains c = true ↔
    (decide ('A' ≤ c ∧ c ≤ 'Z') || (decide ('a' ≤ c) && decide (c ≤ 'z'))) = true
  simp

theorem contains_wordChars : wordChars.contains = isWordChar := by
  ext c
  rw [Bool.eq_iff_iff, wordChars, contains_add (ascending_letters.insert (by decide)),
    contains_insert ascending_letters (by decide), contains_letters]
  simp [isWordChar, Char.isAlphanum, Char.isDigit, Char.le_def, or_comm, or_left_comm]

theorem contains_noBreak : noBreak.contains = fun c => decide (c ≠ '\n') := by
  ext c
  -- Of the characters beside the surrogates nothing is known in general.
  by_cases hbefore : c = '\uD7FF'
  · subst hbefore
    decide
  by_cases hafter : c = '\uE000'
  · subst hafter
    decide
  have hpoint {d : Char} (h : c ≠ d) : c.toNat ≠ d.toNat := fun heq => h (Char.toNat_inj.1 heq)
  rw [Bool.eq_iff_iff, noBreak,
    contains_complement (ascending_single _) (hpoint hbefore) (hpoint hafter), contains_single]
  simp

end CharSet

/-! ## Runs -/

/-- A thread that has recorded nothing since the start of the text. -/
abbrev Thread.fresh (address : Nat) : Thread :=
  ⟨address, 0, none⟩

namespace Program

variable {P : Program} {s : CharSet} {t u : Thread} {i : Nat} {isLast : Bool} {c : Char}

/-- The threads at the place with this index when these have taken the character before it. -/
def behind (P : Program) (index : Nat) (isLast : Bool) (threads : List Thread) : List Thread :=
  (threads.foldl
    (fun front t => P.follow index isLast P.size { t with address := t.address + 1 } front)
    P.noThreads).waiting.reverse

theorem advance_singleton (P : Program) (t : Thread) :
    P.advance c i isLast [t] = if P.takes c t then P.behind i isLast [t] else [] := by
  rw [advance, List.filter]
  cases P.takes c t <;> rfl

/-- Of two threads that take no character in common at most one goes on. -/
theorem advance_pair (h : P.takes c t = true → P.takes c u = false) :
    P.advance c i isLast [t, u] =
      if P.takes c t then P.behind i isLast [t]
      else if P.takes c u then P.behind i isLast [u] else [] := by
  rw [advance, List.filter, List.filter]
  cases ht : P.takes c t with
  | true => rw [h ht]; rfl
  | false => cases P.takes c u <;> rfl

/-- Where no thread is left, what has been found before remains. -/
theorem run_nil_threads (first : Nat) (found? : Option Match) (text : List Char) :
    P.run first found? i [] text = found? := by
  cases text <;> rfl

theorem matchAt?_zero (text : List Char) :
    P.matchAt? text 0 = P.run 0 none 0 (P.start 0 text.isEmpty) text := by
  cases text <;> rfl

/-- A front that comes back as long as characters of a class are taken finds a match that goes on to
the end of their run. -/
theorem run_loop {q : Char → Bool} (front : Nat → List Thread) (found : Nat → Match)
    (stop : ∀ i found?, P.run 0 found? i (front i) [] = some (found i))
    (step : ∀ i found? c text, P.run 0 found? i (front i) (c :: text) =
      P.run 0 (some (found i)) (i + 1) (if q c then front (i + 1) else []) text)
    (found? : Option Match) (text : List Char) :
    P.run 0 found? i (front i) text = some (found (i + runLength q text)) := by
  induction text generalizing found? i with
  | nil => exact stop i found?
  | cons c text ih =>
    rw [step, runLength_cons]
    by_cases hc : q c = true
    · rw [if_pos hc, if_pos hc, ih, Nat.add_right_comm, Nat.add_assoc]
    · rw [if_neg hc, if_neg hc, run_nil_threads, Nat.add_zero]

/-- A front that leads into such a loop finds a match only if there is a run. -/
theorem run_into_loop {q : Char → Bool} {entry : List Thread} (front : Nat → List Thread)
    (found : Nat → Match)
    (loop : ∀ i found? text,
      P.run 0 found? i (front i) text = some (found (i + runLength q text)))
    (stop : ∀ i found?, P.run 0 found? i entry [] = found?)
    (step : ∀ i found? c text, P.run 0 found? i entry (c :: text) =
      P.run 0 found? (i + 1) (if q c then front (i + 1) else []) text)
    (found? : Option Match) (text : List Char) :
    P.run 0 found? i entry text =
      if runLength q text = 0 then found? else some (found (i + runLength q text)) := by
  cases text with
  | nil => exact stop i found?
  | cons c text =>
    rw [step, runLength_cons]
    by_cases hc : q c = true
    · rw [if_pos hc, if_pos hc, loop, if_neg (Nat.succ_ne_zero _), Nat.add_right_comm,
        Nat.add_assoc]
    · rw [if_neg hc, if_neg hc, run_nil_threads, if_pos rfl]

/-! ### A character repeated -/

/-- One character of the set or more. -/
def repeated (s : CharSet) : Program :=
  #[.textStart, .take s, .fork 1 3, .accept]

theorem advance_repeated :
    (repeated s).advance c i isLast [.fresh 1] =
      if s.contains c then [.fresh 1, .fresh 3] else [] :=
  advance_singleton _ _

theorem run_repeated (found? : Option Match) (text : List Char) :
    (repeated s).run 0 found? i [.fresh 1, .fresh 3] text =
      some ⟨⟨0, i + runLength s.contains text⟩, none⟩ := by
  refine run_loop (fun _ => [.fresh 1, .fresh 3]) (fun i => ⟨⟨0, i⟩, none⟩) (fun _ _ => rfl)
    (fun i found? c text => ?_) found? text
  rw [← advance_repeated]
  rfl

/-- Before the first character. -/
theorem run_first (found? : Option Match) (text : List Char) :
    (repeated s).run 0 found? i [.fresh 1] text =
      if runLength s.contains text = 0 then found?
      else some ⟨⟨0, i + runLength s.contains text⟩, none⟩ := by
  refine run_into_loop (fun _ => [.fresh 1, .fresh 3]) (fun i => ⟨⟨0, i⟩, none⟩)
    (fun _ found? text => run_repeated found? text) (fun _ _ => rfl)
    (fun i found? c text => ?_) found? text
  rw [← advance_repeated]
  rfl

theorem matchAt?_repeated (text : List Char) :
    (repeated s).matchAt? text 0 =
      if runLength s.contains text = 0 then none
      else some ⟨⟨0, runLength s.contains text⟩, none⟩ := by
  have h := run_first (s := s) (i := 0) none text
  rw [Nat.zero_add] at h
  rw [matchAt?_zero]
  exact h

/-! ### Comments -/

open CharSet (blanks noBreak)

/-- Blanks, two slashes, and all characters up to the line break as a group. -/
def comment : Program :=
  #[.textStart, .fork 2 4, .take blanks, .jump 1, .take (.single '/'), .take (.single '/'), .enter,
    .fork 8 10, .take noBreak, .jump 7, .leave, .accept]

/-- The threads at the place `i` in the body of a comment that begins at the place `j`. -/
def bodyFront (j i : Nat) : List Thread :=
  [⟨8, j, none⟩, ⟨11, j, some ⟨j, i⟩⟩]

theorem advance_body {j : Nat} :
    comment.advance c i isLast [⟨8, j, none⟩] =
      if noBreak.contains c then bodyFront j i else [] :=
  advance_singleton _ _

theorem advance_slash :
    comment.advance c i isLast [.fresh 5] =
      if (CharSet.single '/').contains c then bodyFront i i else [] :=
  advance_singleton _ _

theorem contains_slash : (CharSet.single '/').contains c = true ↔ c = '/' :=
  CharSet.contains_single

theorem advance_blanks :
    comment.advance c i isLast [.fresh 2, .fresh 4] =
      if blanks.contains c then [.fresh 2, .fresh 4]
      else if (CharSet.single '/').contains c then [.fresh 5] else [] := by
  refine advance_pair fun h => Bool.eq_false_iff.2 fun hslash => ?_
  obtain rfl := contains_slash.1 hslash
  contradiction

theorem run_body {j : Nat} (found? : Option Match) (text : List Char) :
    comment.run 0 found? i (bodyFront j i) text =
      let stop := i + (firstLine text).length
      some ⟨⟨0, stop⟩, some ⟨j, stop⟩⟩ := by
  have hrun : (firstLine text).length = runLength noBreak.contains text := by
    rw [CharSet.contains_noBreak]
    rfl
  rw [hrun]
  refine run_loop (bodyFront j) (fun i => ⟨⟨0, i⟩, some ⟨j, i⟩⟩) (fun _ _ => rfl)
    (fun i found? c text => ?_) found? text
  rw [← advance_body]
  rfl

/-- Behind one slash: the comment has begun if there is another one. -/
theorem run_slash (text : List Char) :
    comment.run 0 none (i + 1) [.fresh 5] text =
      (Pattern.afterCommentMark? ('/' :: text)).map (Pattern.commentMatch i) := by
  cases text with
  | nil => rfl
  | cons c text =>
    show comment.run 0 none (i + 2) (comment.advance c (i + 2) text.isEmpty [.fresh 5]) text = _
    rw [advance_slash]
    by_cases hc : c = '/'
    · rw [if_pos (contains_slash.2 hc), run_body, hc]
      rfl
    · rw [if_neg (mt contains_slash.1 hc), run_nil_threads]
      simp [Pattern.afterCommentMark?, hc]

theorem run_blanks (text : List Char) :
    comment.run 0 none i [.fresh 2, .fresh 4] text =
      (Pattern.afterCommentMark? (text.dropWhile isBlank)).map
        (Pattern.commentMatch (i + runLength isBlank text)) := by
  induction text generalizing i with
  | nil => rfl
  | cons c text ih =>
    show comment.run 0 none (i + 1)
      (comment.advance c (i + 1) text.isEmpty [.fresh 2, .fresh 4]) text = _
    rw [advance_blanks, CharSet.contains_blanks, runLength_cons]
    by_cases hc : isBlank c = true
    · rw [if_pos hc, if_pos hc, ih, List.dropWhile_cons_of_pos hc, Nat.add_right_comm,
        Nat.add_assoc]
    rw [if_neg hc, if_neg hc, List.dropWhile_cons_of_neg hc]
    by_cases hs : c = '/'
    · rw [if_pos (contains_slash.2 hs), run_slash, hs, Nat.add_zero]
    · rw [if_neg (mt contains_slash.1 hs), run_nil_threads]
      simp [Pattern.afterCommentMark?, hs]

theorem matchAt?_comment (text : List Char) :
    comment.matchAt? text 0 =
      (Pattern.afterCommentMark? (text.dropWhile isBlank)).map
        (Pattern.commentMatch (runLength isBlank text)) := by
  have h := run_blanks (i := 0) text
  rw [Nat.zero_add] at h
  rw [matchAt?_zero]
  exact h

/-! ### Identifiers -/

open CharSet (letters wordChars)

/-- A colon or not, a letter or more, and word characters. -/
def identifier : Program :=
  #[.textStart, .fork 2 3, .take (.single ':'), .take letters, .fork 3 5, .fork 6 8,
    .take wordChars, .jump 5, .accept]

theorem advance_wordChars :
    identifier.advance c i isLast [.fresh 6] =
      if wordChars.contains c then [.fresh 6, .fresh 8] else [] :=
  advance_singleton _ _

theorem advance_letters :
    identifier.advance c i isLast [.fresh 3] =
      if letters.contains c then [.fresh 3, .fresh 6, .fresh 8] else [] :=
  advance_singleton _ _

/-- Behind a letter the letters are among the word characters that may follow. -/
theorem advance_letters_wordChars :
    identifier.advance c i isLast [.fresh 3, .fresh 6] =
      if letters.contains c then [.fresh 3, .fresh 6, .fresh 8]
      else if wordChars.contains c then [.fresh 6, .fresh 8] else [] := by
  have hletter : identifier.takes c (.fresh 3) = letters.contains c := rfl
  have hword : identifier.takes c (.fresh 6) = wordChars.contains c := rfl
  rw [advance, List.filter, List.filter, hletter, hword]
  cases h : letters.contains c with
  | true =>
    rw [CharSet.contains_letters] at h
    rw [CharSet.contains_wordChars, isWordChar_of_isAlpha h]
    rfl
  | false => cases wordChars.contains c <;> rfl

theorem advance_colon :
    identifier.advance c i isLast [.fresh 2, .fresh 3] =
      if (CharSet.single ':').contains c then [.fresh 3]
      else if letters.contains c then [.fresh 3, .fresh 6, .fresh 8] else [] := by
  refine advance_pair fun h => ?_
  obtain rfl := CharSet.contains_single.1 h
  rfl

theorem run_wordChars (found? : Option Match) (text : List Char) :
    identifier.run 0 found? i [.fresh 6, .fresh 8] text =
      some ⟨⟨0, i + runLength isWordChar text⟩, none⟩ := by
  rw [← CharSet.contains_wordChars]
  refine run_loop (fun _ => [.fresh 6, .fresh 8]) (fun i => ⟨⟨0, i⟩, none⟩) (fun _ _ => rfl)
    (fun i found? c text => ?_) found? text
  rw [← advance_wordChars]
  rfl

theorem run_letters_wordChars (found? : Option Match) (text : List Char) :
    identifier.run 0 found? i [.fresh 3, .fresh 6, .fresh 8] text =
      some ⟨⟨0, i + runLength isWordChar text⟩, none⟩ := by
  induction text generalizing found? i with
  | nil => rfl
  | cons c text ih =>
    show identifier.run 0 (some ⟨⟨0, i⟩, none⟩) (i + 1)
      (identifier.advance c (i + 1) text.isEmpty [.fresh 3, .fresh 6]) text = _
    rw [advance_letters_wordChars, CharSet.contains_letters, CharSet.contains_wordChars,
      runLength_cons]
    by_cases ha : c.isAlpha = true
    · rw [if_pos ha, if_pos (isWordChar_of_isAlpha ha), ih, Nat.add_right_comm, Nat.add_assoc]
    rw [if_neg ha]
    by_cases hc : isWordChar c = true
    · rw [if_pos hc, if_pos hc, run_wordChars, Nat.add_right_comm, Nat.add_assoc]
    · rw [if_neg hc, if_neg hc, run_nil_threads, Nat.add_zero]

/-- A name, where no thread is left but the one that waits for its first letter. -/
theorem run_letters (text : List Char) :
    identifier.run 0 none i [.fresh 3] text =
      if Pattern.nameLength text = 0 then none
      else some ⟨⟨0, i + Pattern.nameLength text⟩, none⟩ := by
  cases text with
  | nil => rfl
  | cons c text =>
    show identifier.run 0 none (i + 1)
      (identifier.advance c (i + 1) text.isEmpty [.fresh 3]) text = _
    rw [advance_letters, CharSet.contains_letters, Pattern.nameLength]
    by_cases ha : c.isAlpha = true
    · rw [if_pos ha, if_pos ha, run_letters_wordChars, runLength_cons,
        if_pos (isWordChar_of_isAlpha ha), if_neg (Nat.succ_ne_zero _), Nat.add_right_comm,
        Nat.add_assoc]
    · rw [if_neg ha, if_neg ha, run_nil_threads, if_pos rfl]

theorem matchAt?_identifier (text : List Char) :
    identifier.matchAt? text 0 =
      if Pattern.identifierLength text = 0 then none
      else some ⟨⟨0, Pattern.identifierLength text⟩, none⟩ := by
  rw [matchAt?_zero]
  cases text with
  | nil => rfl
  | cons c text =>
    show identifier.run 0 none 1
      (identifier.advance c 1 text.isEmpty [.fresh 2, .fresh 3]) text = _
    rw [advance_colon, Pattern.identifierLength]
    by_cases hc : c = ':'
    · rw [if_pos (CharSet.contains_single.2 hc), if_pos hc, run_letters]
      by_cases hzero : Pattern.nameLength text = 0
      · rw [if_pos hzero, if_pos hzero, if_pos rfl]
      · rw [if_neg hzero, if_neg hzero, if_neg (Nat.succ_ne_zero _), Nat.add_comm]
    -- Without a colon the text starts with a name or with nothing.
    · have hname := run_letters (i := 0) (c :: text)
      change identifier.run 0 none 1
        (identifier.advance c 1 text.isEmpty [.fresh 3]) text = _ at hname
      rw [advance_letters, Nat.zero_add] at hname
      rw [if_neg (mt CharSet.contains_single.1 hc), if_neg hc, hname]

/-! ### Numbers -/

open CharSet (digits)

/-- A digit or more, and possibly a point and a digit or more as a group. -/
def number : Program :=
  #[.textStart, .take digits, .fork 1 3, .fork 4 9, .enter, .take (.single '.'), .take digits,
    .fork 6 8, .leave, .accept]

/-- The threads at the place `i` behind a digit of a fraction that begins at the place `j`. -/
def decimalsFront (j i : Nat) : List Thread :=
  [⟨6, j, none⟩, ⟨9, j, some ⟨j, i⟩⟩]

/-- The threads at the place `i` behind a digit before the fraction. -/
def digitsFront (i : Nat) : List Thread :=
  [.fresh 1, ⟨5, i, none⟩, .fresh 9]

theorem advance_decimals {j : Nat} :
    number.advance c i isLast [⟨6, j, none⟩] =
      if digits.contains c then decimalsFront j i else [] :=
  advance_singleton _ _

theorem advance_first_digit :
    number.advance c i isLast [.fresh 1] =
      if digits.contains c then digitsFront i else [] :=
  advance_singleton _ _

theorem advance_point {j : Nat} :
    number.advance c i isLast [⟨1, 0, none⟩, ⟨5, j, none⟩] =
      if digits.contains c then digitsFront i
      else if (CharSet.single '.').contains c then [⟨6, j, none⟩] else [] := by
  refine advance_pair fun h => Bool.eq_false_iff.2 fun hpoint => ?_
  obtain rfl := CharSet.contains_single.1 hpoint
  contradiction

theorem run_decimals {j : Nat} (found? : Option Match) (text : List Char) :
    number.run 0 found? i (decimalsFront j i) text =
      let stop := i + runLength Char.isDigit text
      some ⟨⟨0, stop⟩, some ⟨j, stop⟩⟩ := by
  rw [← CharSet.contains_digits]
  refine run_loop (decimalsFront j) (fun i => ⟨⟨0, i⟩, some ⟨j, i⟩⟩) (fun _ _ => rfl)
    (fun i found? c text => ?_) found? text
  rw [← advance_decimals]
  rfl

/-- Behind a point: without a digit the match that was found before it remains. -/
theorem run_point {j : Nat} (found? : Option Match) (text : List Char) :
    number.run 0 found? i [⟨6, j, none⟩] text =
      let stop := i + runLength Char.isDigit text
      if runLength Char.isDigit text = 0 then found?
      else some ⟨⟨0, stop⟩, some ⟨j, stop⟩⟩ := by
  refine run_into_loop (decimalsFront j) (fun i => ⟨⟨0, i⟩, some ⟨j, i⟩⟩)
    (fun _ found? text => run_decimals found? text) (fun _ _ => rfl)
    (fun i found? c text => ?_) found? text
  rw [← CharSet.contains_digits, ← advance_decimals]
  rfl

/-- Behind a digit. -/
theorem run_digits (found? : Option Match) (text : List Char) :
    (number.run 0 found? i (digitsFront i) text).map Match.whole =
      some ⟨0, i + runLength Char.isDigit text +
        Pattern.fractionLength (text.dropWhile Char.isDigit)⟩ := by
  induction text generalizing found? i with
  | nil => rfl
  | cons c text ih =>
    show (number.run 0 (some ⟨⟨0, i⟩, none⟩) (i + 1)
      (number.advance c (i + 1) text.isEmpty [.fresh 1, ⟨5, i, none⟩]) text).map Match.whole = _
    rw [advance_point, CharSet.contains_digits, runLength_cons]
    by_cases hc : c.isDigit = true
    · rw [if_pos hc, if_pos hc, ih, List.dropWhile_cons_of_pos hc, Nat.add_right_comm i,
        Nat.add_assoc i]
    rw [if_neg hc, if_neg hc, List.dropWhile_cons_of_neg hc, Pattern.fractionLength]
    by_cases hp : c = '.'
    · rw [if_pos (CharSet.contains_single.2 hp), run_point]
      by_cases hzero : runLength Char.isDigit text = 0
      · simp [hp, hzero]
      · have hstop : i + 1 + runLength Char.isDigit text =
            i + (runLength Char.isDigit text + 1) := by omega
        simp [hp, hzero, hstop]
    · rw [if_neg (mt CharSet.contains_single.1 hp), run_nil_threads, if_neg (by simp [hp])]
      rfl

theorem matchAt?_number (text : List Char) :
    (number.matchAt? text 0).map Match.whole =
      if Pattern.numberLength text = 0 then none else some ⟨0, Pattern.numberLength text⟩ := by
  rw [matchAt?_zero, Pattern.numberLength, drop_runLength]
  cases text with
  | nil => rfl
  | cons c text =>
    show (number.run 0 none 1
      (number.advance c 1 text.isEmpty [.fresh 1]) text).map Match.whole = _
    rw [advance_first_digit, CharSet.contains_digits, runLength_cons]
    by_cases hc : c.isDigit = true
    · have hpos : 1 + runLength Char.isDigit text +
          Pattern.fractionLength (text.dropWhile Char.isDigit) ≠ 0 := by omega
      rw [if_pos hc, if_pos hc, run_digits, if_neg (Nat.succ_ne_zero _),
        List.dropWhile_cons_of_pos hc, Nat.add_comm (runLength _ _), if_neg hpos]
    · rw [if_neg hc, if_neg hc, run_nil_threads, if_pos rfl, if_pos rfl]
      rfl

end Program

end Lexing
