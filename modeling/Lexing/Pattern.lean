/-!
Patterns: what a lexicon may use to recognise comments, names and numbers. A pattern says which
match starts at a place of a text, if one does, and a search gives the leftmost of these. Nothing
else is known of a pattern than that its matches lie within the text and their first groups within
them, so whatever is proved of tokenizers holds for every pattern.

A tokenizer asks only for a leading match: one that starts where the text starts and is not empty.
It is what a search finds when that is of this kind (`leading?_eq_some_iff`), and there is no need
to search for it.
-/

namespace Lexing

/-- A piece of a text, as the indices of its first character and of the one after its last. -/
structure Piece where
  start : Nat
  stop : Nat
deriving DecidableEq, Repr

/-- The characters of the text that the piece covers. -/
def Piece.of (p : Piece) (text : List Char) : List Char :=
  (text.take p.stop).drop p.start

/-- Where a pattern matched, and its first group if that took part in the match. -/
structure Match where
  whole : Piece
  group? : Option Piece
deriving DecidableEq, Repr

/-- The piece that the match stands for: its first group, or all of it when the group took no
part. -/
def Match.content (m : Match) : Piece :=
  m.group?.getD m.whole

/-- A match lies within a text when its pieces are not reversed, the whole one ends in the text, and
the group lies inside the whole one. -/
structure Match.Within (m : Match) (text : List Char) : Prop where
  start_le : m.whole.start ≤ m.whole.stop
  stop_le : m.whole.stop ≤ text.length
  group_le : ∀ g ∈ m.group?, m.whole.start ≤ g.start ∧ g.start ≤ g.stop ∧ g.stop ≤ m.whole.stop

theorem Match.Within.content_le {m : Match} {text : List Char} (h : m.Within text) :
    m.content.start ≤ m.content.stop := by
  cases hg : m.group? with
  | none => simpa [Match.content, hg] using h.start_le
  | some g => simpa [Match.content, hg] using (h.group_le g hg).2.1

/-- A rule that says which match of a text starts after how many characters. -/
structure Pattern where
  matchAt? : List Char → Nat → Option Match
  start_eq : ∀ text index m, matchAt? text index = some m → m.whole.start = index
  within : ∀ text index m, matchAt? text index = some m → m.Within text

namespace Pattern

/-- The leftmost match in the text. -/
def find? (p : Pattern) (text : List Char) : Option Match :=
  (List.range (text.length + 1)).findSome? (p.matchAt? text)

/-- The match that starts with the text, if it is not empty. -/
def leading? (p : Pattern) (text : List Char) : Option Match :=
  (p.matchAt? text 0).filter fun m => m.whole.stop != 0

/-- The pattern whose matches all start with the text. -/
def anchored (lead? : List Char → Option Match)
    (start_eq : ∀ text m, lead? text = some m → m.whole.start = 0)
    (within : ∀ text m, lead? text = some m → m.Within text) : Pattern where
  matchAt? text index := if index = 0 then lead? text else none
  start_eq text index m h := by
    split at h
    · rename_i hi
      rw [start_eq text m h, hi]
    · contradiction
  within text index m h := by
    split at h
    · exact within text m h
    · contradiction

variable {p : Pattern} {text : List Char} {m : Match}

theorem within_of_find? (h : p.find? text = some m) : m.Within text := by
  obtain ⟨i, -, hm⟩ := List.exists_of_findSome?_eq_some h
  exact p.within text i m hm

theorem matchAt?_eq_some_iff :
    p.matchAt? text 0 = some m ↔ p.find? text = some m ∧ m.whole.start = 0 := by
  rw [find?, List.range_succ_eq_map, List.findSome?_cons]
  constructor
  · intro h
    exact ⟨by rw [h], p.start_eq text 0 m h⟩
  · rintro ⟨h, hs⟩
    split at h
    · rename_i heq
      rw [heq]
      exact h
    -- Any other match of the search starts later.
    · obtain ⟨i, hi, hm⟩ := List.exists_of_findSome?_eq_some h
      obtain ⟨j, -, rfl⟩ := List.mem_map.1 hi
      have := p.start_eq text _ m hm
      omega

theorem leading?_eq_some_iff :
    p.leading? text = some m ↔ p.find? text = some m ∧ m.whole.start = 0 ∧ 0 < m.whole.stop := by
  simp [leading?, Option.filter_eq_some_iff, matchAt?_eq_some_iff, Nat.pos_iff_ne_zero, and_assoc]

theorem leading?_eq_filter :
    p.leading? text = (p.find? text).filter fun m => m.whole.start == 0 && m.whole.stop != 0 := by
  refine Option.ext fun m => ?_
  simp [leading?_eq_some_iff, Nat.pos_iff_ne_zero]

theorem matchAt?_of_leading? (h : p.leading? text = some m) : p.matchAt? text 0 = some m :=
  (Option.filter_eq_some_iff.1 h).1

theorem stop_le_of_leading? (h : p.leading? text = some m) : m.whole.stop ≤ text.length :=
  (p.within text 0 m (matchAt?_of_leading? h)).stop_le

theorem stop_pos_of_leading? (h : p.leading? text = some m) : 0 < m.whole.stop :=
  (leading?_eq_some_iff.1 h).2.2

/-- An empty text has no leading match. -/
@[simp] theorem leading?_nil (p : Pattern) : p.leading? [] = none := by
  cases h : p.leading? [] with
  | none => rfl
  | some m =>
    have hle := stop_le_of_leading? h
    have hpos := stop_pos_of_leading? h
    simp at hle
    omega

theorem leading?_anchored {lead? : List Char → Option Match}
    {hs : ∀ text m, lead? text = some m → m.whole.start = 0}
    {hw : ∀ text m, lead? text = some m → m.Within text} (text : List Char) :
    (anchored lead? hs hw).leading? text = (lead? text).filter fun m => m.whole.stop != 0 := rfl

/-- The content of a leading match is an infix of the characters that the match consumes. -/
theorem content_of_leading? (h : p.leading? text = some m) :
    m.content.of text <:+: text.take m.whole.stop := by
  have hw := p.within text 0 m (matchAt?_of_leading? h)
  have hs := (leading?_eq_some_iff.1 h).2.1
  cases hg : m.group? with
  | none => simpa [Match.content, hg, Piece.of] using (List.drop_suffix _ _).isInfix
  | some g =>
    have hle := (hw.group_le g hg).2.2
    have : text.take g.stop = (text.take m.whole.stop).take g.stop := by
      rw [List.take_take, Nat.min_eq_left hle]
    simp only [Match.content, hg, Option.getD_some, Piece.of, this]
    exact (List.drop_suffix _ _).isInfix.trans (List.take_prefix _ _).isInfix

end Pattern

end Lexing
