import Lexing.Unicode.Ranges

/-!
Sets of characters, as patterns use them. A set is built from ranges of code points, which are kept
in ascending order with gaps between them: ranges that overlap or touch are made one. Two sets are
equal when their ranges are, so it does not matter in which order members have been added.

The surrogates U+D800 to U+DFFF are no characters, but the code points on both sides of them do not
touch: a range that ends at U+D7FF and one that begins at U+E000 stay apart. Elsewhere a set and its
complement share no character (`contains_complement`).
-/

namespace Lexing

open Unicode (Ranges)

/-- A set of characters. -/
structure CharSet where
  ranges : Ranges
deriving DecidableEq, Repr

namespace CharSet

/-- Whether the character is in the set. -/
def contains (s : CharSet) (c : Char) : Bool :=
  s.ranges.covers c

/-- Adds a range to ascending ranges. -/
def insertRange (r : Nat × Nat) : Ranges → Ranges
  | [] => [r]
  | s :: rest =>
    if r.2 + 1 < s.1 then r :: s :: rest
    else if s.2 + 1 < r.1 then s :: insertRange r rest
    else insertRange (min r.1 s.1, max r.2 s.2) rest

/-- The code point of the character after the one with this code point. -/
def following (point : Nat) : Nat :=
  if point = 0xD7FF then 0xE000 else point + 1

/-- The code point of the character before the one with this code point. -/
def preceding (point : Nat) : Nat :=
  if point = 0xE000 then 0xD7FF else point - 1

/-- The last code point. -/
def lastPoint : Nat := 0x10FFFF

/-- The gaps between ascending ranges, and the one behind them, when the range before them ends at
`last`. The ends of a gap are the character after a range and the one before the next range. If
only surrogates lie between the ranges, these are the characters beside the surrogates. -/
def gapsAfter (last : Nat) : Ranges → Ranges
  | [] => if last < lastPoint then [(following last, lastPoint)] else []
  | r :: rest =>
    (min (following last) (preceding r.1), max (following last) (preceding r.1)) ::
      gapsAfter r.2 rest

/-- The gaps between ascending ranges, before and behind them. -/
def gaps : Ranges → Ranges
  | [] => [(0, lastPoint)]
  | r :: rest => if 0 < r.1 then (0, preceding r.1) :: gapsAfter r.2 rest else gapsAfter r.2 rest

/-- The set without members. -/
def empty : CharSet :=
  ⟨[]⟩

/-- The set with all characters from the first to the last as further members. -/
def insert (s : CharSet) (first last : Char) : CharSet :=
  ⟨insertRange (first.toNat, last.toNat) s.ranges⟩

/-- The set with one more member. -/
def add (s : CharSet) (c : Char) : CharSet :=
  s.insert c c

/-- The set of one character. -/
def single (c : Char) : CharSet :=
  empty.add c

/-- The set of the gaps, which holds the characters that are not in the set. -/
def complement (s : CharSet) : CharSet :=
  ⟨gaps s.ranges⟩

/-- The characters that are in one of two sets. -/
def union (s t : CharSet) : CharSet :=
  ⟨t.ranges.foldl (fun ranges r => insertRange r ranges) s.ranges⟩

/-- The only member of the set, if it has just one. -/
def single? (s : CharSet) : Option Char :=
  match s.ranges with
  | [(first, last)] => if first = last then some (Char.ofNat first) else none
  | _ => none

/-! ## Members -/

/-- Ranges in ascending order from `low` on, with a gap behind each. -/
def Separated : Nat → Ranges → Prop
  | _, [] => True
  | low, r :: rest => low ≤ r.1 ∧ r.1 ≤ r.2 ∧ Separated (r.2 + 2) rest

variable {low : Nat} {r : Nat × Nat} {ranges : Ranges} {c : Char}

theorem Separated.of_le {low' : Nat} (h : Separated low ranges) (hle : low' ≤ low) :
    Separated low' ranges := by
  cases ranges with
  | nil => trivial
  | cons r rest => exact ⟨Nat.le_trans hle h.1, h.2⟩

theorem separated_insertRange (h : Separated low ranges) (hlow : low ≤ r.1) (hr : r.1 ≤ r.2) :
    Separated low (insertRange r ranges) := by
  induction ranges generalizing low r with
  | nil => exact ⟨hlow, hr, trivial⟩
  | cons s rest ih =>
    obtain ⟨hs, hle, hrest⟩ := h
    rw [insertRange]
    split
    · exact ⟨hlow, hr, by omega, hle, hrest⟩
    · split
      · exact ⟨hs, hle, ih hrest (by omega) hr⟩
      · refine ih (hrest.of_le (by omega)) ?_ ?_
        · simp only
          omega
        · simp only
          omega

theorem covers_cons :
    Ranges.covers (r :: ranges) c = true ↔
      (r.1 ≤ c.toNat ∧ c.toNat ≤ r.2) ∨ ranges.covers c = true := by
  simp [Ranges.covers]

theorem covers_insertRange (hr : r.1 ≤ r.2) (h : Separated low ranges) :
    Ranges.covers (insertRange r ranges) c = true ↔
      (r.1 ≤ c.toNat ∧ c.toNat ≤ r.2) ∨ ranges.covers c = true := by
  induction ranges generalizing low r with
  | nil => simp [insertRange, Ranges.covers]
  | cons s rest ih =>
    obtain ⟨-, hs, hrest⟩ := h
    rw [insertRange, covers_cons]
    split
    · rw [covers_cons, covers_cons]
    · split
      · rw [covers_cons, ih hr hrest]
        exact or_left_comm
      · rw [ih (by simp only; omega) hrest, ← or_assoc]
        refine or_congr_left ?_
        simp only
        omega

theorem le_of_covers (h : Separated low ranges) (hc : ranges.covers c = true) :
    low ≤ c.toNat := by
  induction ranges generalizing low with
  | nil => simp [Ranges.covers] at hc
  | cons r rest ih =>
    obtain ⟨hlow, hr, hrest⟩ := h
    rcases covers_cons.1 hc with hc | hc
    · exact Nat.le_trans hlow hc.1
    · have := ih hrest hc
      omega

/-- The code points of characters are those below and those above the surrogates. -/
theorem toNat_bounds (c : Char) : c.toNat < 0xD800 ∨ 0xDFFF < c.toNat ∧ c.toNat ≤ lastPoint := by
  have := c.valid
  simp only [UInt32.isValidChar, Nat.isValidChar] at this
  simp only [Char.toNat, lastPoint]
  omega

/-- The gaps hold what lies between the ranges, save for the characters beside the surrogates. -/
theorem covers_gapsAfter {last : Nat} (h : Separated (last + 2) ranges) (hbefore : c.toNat ≠ 0xD7FF)
    (hafter : c.toNat ≠ 0xE000) :
    Ranges.covers (gapsAfter last ranges) c = true ↔
      last < c.toNat ∧ ¬Ranges.covers ranges c = true := by
  have hbounds := toNat_bounds c
  induction ranges generalizing last with
  | nil =>
    rw [gapsAfter, following]
    rw [lastPoint] at *
    split
    · split <;> simp [Ranges.covers] <;> omega
    · simp [Ranges.covers]
      omega
  | cons r rest ih =>
    obtain ⟨hlow, hr, hrest⟩ := h
    have hle := le_of_covers (c := c) hrest
    have ih := ih hrest
    rw [gapsAfter, covers_cons, covers_cons, following, preceding]
    by_cases hc : Ranges.covers rest c = true
    · have := hle hc
      simp only [ih, hc]
      split <;> split <;> simp <;> omega
    · simp only [ih, hc]
      split <;> split <;> simp <;> omega

/-- The ranges of the set ascend. -/
def Ascending (s : CharSet) : Prop :=
  Separated 0 s.ranges

variable {s : CharSet} {d first last : Char}

theorem ascending_empty : empty.Ascending := trivial

theorem Ascending.insert (h : s.Ascending) (hle : first ≤ last) : (s.insert first last).Ascending :=
  separated_insertRange h (Nat.zero_le _) hle

theorem Ascending.add (h : s.Ascending) (c : Char) : (s.add c).Ascending :=
  h.insert (Char.le_refl c)

theorem ascending_single (c : Char) : (single c).Ascending :=
  ascending_empty.add c

@[simp] theorem contains_empty (c : Char) : empty.contains c = false := rfl

theorem contains_insert (h : s.Ascending) (hle : first ≤ last) :
    (s.insert first last).contains c = true ↔ (first ≤ c ∧ c ≤ last) ∨ s.contains c = true :=
  covers_insertRange (r := (first.toNat, last.toNat)) hle h

theorem contains_add (h : s.Ascending) :
    (s.add d).contains c = true ↔ c = d ∨ s.contains c = true := by
  have heq : d ≤ c ∧ c ≤ d ↔ c = d :=
    ⟨fun h => Char.le_antisymm h.2 h.1, fun h => h ▸ ⟨Char.le_refl c, Char.le_refl c⟩⟩
  rw [add, contains_insert h (Char.le_refl d), heq]

theorem contains_single : (single d).contains c = true ↔ c = d := by
  rw [single, contains_add ascending_empty, contains_empty]
  simp

/-- The complement holds the characters that the set does not, save for those beside the
surrogates. -/
theorem contains_complement (h : s.Ascending) (hbefore : c.toNat ≠ 0xD7FF)
    (hafter : c.toNat ≠ 0xE000) : s.complement.contains c = true ↔ ¬s.contains c = true := by
  obtain ⟨ranges⟩ := s
  have hbounds := toNat_bounds c
  rw [complement, contains, contains]
  cases ranges with
  | nil =>
    simp only [gaps, Ranges.covers, lastPoint] at *
    simp
    omega
  | cons r rest =>
    obtain ⟨-, hr, hrest⟩ := h
    have hle := le_of_covers (c := c) hrest
    have ih := covers_gapsAfter hrest hbefore hafter
    simp only [gaps]
    split
    · rw [covers_cons, covers_cons, ih, preceding]
      by_cases hc : Ranges.covers rest c = true
      · have := hle hc
        simp only [hc]
        split <;> simp <;> omega
      · simp only [hc]
        split <;> simp <;> omega
    · rw [covers_cons, ih]
      by_cases hc : Ranges.covers rest c = true
      · simp [hc]
      · simp [hc]
        omega

end CharSet

end Lexing
