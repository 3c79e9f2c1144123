import Lexing.Pattern
import Lexing.Pattern.Program

/-!
Running a program on a text. The threads of a run go through the text side by side, one character at
a time, and are kept in the order of preference. Of the threads that reach the same instruction at
the same place only the most preferred one is kept, so at every place there are no more threads than
instructions. A thread that accepts ends all that are less preferred; those before it go on, and
their matches, if they find any, take the place of its match.

The main statement is that every match lies within the text, so an expression is a pattern.
-/

namespace Lexing

/-- A thread of a run: the address of its next instruction, and what it has recorded of the first
group. -/
structure Thread where
  address : Nat
  /-- Where the group was entered last. -/
  entered : Nat
  group? : Option Piece

/-- The threads at one place of the text. -/
structure Front where
  /-- Which instructions have been reached at this place. -/
  reached : Array Bool
  /-- The threads that wait for a character or accept, the most preferred one last. -/
  waiting : List Thread

namespace Program

/-- A front without threads. -/
def noThreads (P : Program) : Front :=
  ⟨Array.replicate P.size false, []⟩

/-- Follows a thread to the instructions that wait for a character or accept, at the place with this
index. The depth bounds the number of instructions on the way; since none is reached twice, the
number of all instructions is enough. -/
def follow (P : Program) (index : Nat) (isLast : Bool) : Nat → Thread → Front → Front
  | 0, _, front => front
  | depth + 1, t, front =>
    if front.reached.getD t.address true then front
    else
      let front := { front with reached := front.reached.setIfInBounds t.address true }
      let next := { t with address := t.address + 1 }
      match P[t.address]? with
      | none => front
      | some (.take _) => { front with waiting := t :: front.waiting }
      | some .accept => { front with waiting := t :: front.waiting }
      | some (.fork first second) =>
        P.follow index isLast depth { t with address := second }
          (P.follow index isLast depth { t with address := first } front)
      | some (.jump target) => P.follow index isLast depth { t with address := target } front
      | some .enter => P.follow index isLast depth { next with entered := index } front
      | some .leave =>
        P.follow index isLast depth { next with group? := some ⟨t.entered, index⟩ } front
      | some .textStart => if index = 0 then P.follow index isLast depth next front else front
      | some .textEnd => if isLast then P.follow index isLast depth next front else front

/-- Whether the thread accepts. -/
def accepts (P : Program) (t : Thread) : Bool :=
  P[t.address]? == some .accept

/-- Whether the thread takes the character. -/
def takes (P : Program) (c : Char) (t : Thread) : Bool :=
  match P[t.address]? with
  | some (.take s) => s.contains c
  | _ => false

/-- The threads that go on behind a character, most preferred first, when the next place has this
index. -/
def advance (P : Program) (c : Char) (index : Nat) (isLast : Bool) (threads : List Thread) :
    List Thread :=
  let front := (threads.filter (P.takes c)).foldl
    (fun front t => P.follow index isLast P.size { t with address := t.address + 1 } front)
    P.noThreads
  front.waiting.reverse

/-- The threads at the place where a match is to start. -/
def start (P : Program) (index : Nat) (isLast : Bool) : List Thread :=
  (P.follow index isLast P.size ⟨0, index, none⟩ P.noThreads).waiting.reverse

/-- The match of the first thread that accepts, or the one that was found before. -/
def accepted (P : Program) (first index : Nat) (found? : Option Match) (threads : List Thread) :
    Option Match :=
  match threads.find? P.accepts with
  | some t => some ⟨⟨first, index⟩, t.group?⟩
  | none => found?

/-- Runs the threads at the place with this index, with the text after it. -/
def run (P : Program) (first : Nat) (found? : Option Match) (index : Nat) (threads : List Thread) :
    List Char → Option Match
  | [] => P.accepted first index found? threads
  | c :: rest =>
    let found? := P.accepted first index found? threads
    let preferred := threads.takeWhile (!P.accepts ·)
    if preferred.isEmpty then found?
    else P.run first found? (index + 1) (P.advance c (index + 1) rest.isEmpty preferred) rest

/-- The text after so many characters, if there are as many. -/
def after? : List Char → Nat → Option (List Char)
  | text, 0 => some text
  | [], _ + 1 => none
  | _ :: text, index + 1 => after? text index

/-- The match that starts at the place with this index. -/
def matchAt? (P : Program) (text : List Char) (index : Nat) : Option Match := do
  let rest ← after? text index
  P.run index none index (P.start index rest.isEmpty) rest

/-! ## Matches lie within the text -/

/-- What a thread has recorded lies between the place `first`, where the run started, and the place
`index`, where the thread is. -/
structure Sound (first index : Nat) (t : Thread) : Prop where
  first_le : first ≤ t.entered
  entered_le : t.entered ≤ index
  group_le : ∀ g ∈ t.group?, first ≤ g.start ∧ g.start ≤ g.stop ∧ g.stop ≤ index

variable {P : Program} {first index : Nat} {isLast : Bool}

theorem Sound.advance {t : Thread} (h : Sound first index t) (address : Nat) :
    Sound first (index + 1) { t with address } :=
  ⟨h.first_le, Nat.le_succ_of_le h.entered_le, fun g hg =>
    let ⟨h₁, h₂, h₃⟩ := h.group_le g hg
    ⟨h₁, h₂, Nat.le_succ_of_le h₃⟩⟩

theorem sound_of_mem_follow {depth : Nat} {t : Thread} {front : Front} (ht : Sound first index t)
    (hfront : ∀ u ∈ front.waiting, Sound first index u) :
    ∀ u ∈ (P.follow index isLast depth t front).waiting, Sound first index u := by
  induction depth generalizing t front with
  | zero => exact hfront
  | succ depth ih =>
    have hle : first ≤ index := Nat.le_trans ht.first_le ht.entered_le
    rw [follow]
    split
    · exact hfront
    · simp only
      split
      · exact hfront
      · simpa using ⟨ht, hfront⟩
      · simpa using ⟨ht, hfront⟩
      · exact ih ⟨ht.1, ht.2, ht.3⟩ (ih ⟨ht.1, ht.2, ht.3⟩ hfront)
      · exact ih ⟨ht.1, ht.2, ht.3⟩ hfront
      · exact ih ⟨hle, Nat.le_refl _, ht.3⟩ hfront
      -- The group spans from where it was entered to the place that the thread has reached.
      · refine ih ⟨ht.1, ht.2, ?_⟩ hfront
        intro g hg
        cases hg
        exact ⟨ht.first_le, ht.entered_le, Nat.le_refl _⟩
      · split
        · exact ih ⟨ht.1, ht.2, ht.3⟩ hfront
        · exact hfront
      · split
        · exact ih ⟨ht.1, ht.2, ht.3⟩ hfront
        · exact hfront

theorem sound_of_mem_start : ∀ t ∈ P.start first isLast, Sound first first t := by
  intro t ht
  refine sound_of_mem_follow ?_ ?_ t (List.mem_reverse.1 ht)
  · exact ⟨Nat.le_refl _, Nat.le_refl _, by simp⟩
  · simp [noThreads]

theorem sound_of_mem_advance {c : Char} {threads : List Thread}
    (h : ∀ t ∈ threads, Sound first index t) :
    ∀ t ∈ P.advance c (index + 1) isLast threads, Sound first (index + 1) t := by
  intro t ht
  rw [advance, List.mem_reverse] at ht
  have key : ∀ (threads : List Thread) (front : Front), (∀ t ∈ threads, Sound first index t) →
      (∀ t ∈ front.waiting, Sound first (index + 1) t) →
      ∀ t ∈ (threads.foldl (fun front t =>
        P.follow (index + 1) isLast P.size { t with address := t.address + 1 } front)
        front).waiting, Sound first (index + 1) t := by
    intro threads
    induction threads with
    | nil => exact fun front _ hf => hf
    | cons t threads ih =>
      intro front hts hf
      refine ih _ (fun u hu => hts u (List.mem_cons_of_mem t hu)) ?_
      exact sound_of_mem_follow ((hts t List.mem_cons_self).advance _) hf
  exact key _ _ (fun u hu => h u (List.mem_filter.1 hu).1) (by simp [noThreads]) t ht

/-- A match that starts at the place `first` and lies within the text. -/
def Fits (first : Nat) (text : List Char) (m : Match) : Prop :=
  m.whole.start = first ∧ m.Within text

theorem fits_of_accepted {text : List Char} {found? : Option Match} {threads : List Thread}
    (hle : first ≤ index) (hlen : index ≤ text.length)
    (hfound : ∀ m ∈ found?, Fits first text m) (h : ∀ t ∈ threads, Sound first index t) :
    ∀ m ∈ P.accepted first index found? threads, Fits first text m := by
  intro m hm
  rw [accepted] at hm
  split at hm
  · rename_i t ht
    cases hm
    exact ⟨rfl, hle, hlen, (h t (List.mem_of_find?_eq_some ht)).group_le⟩
  · exact hfound m hm

theorem fits_of_run {text rest : List Char} {found? : Option Match} {threads : List Thread}
    (hle : first ≤ index) (hlen : index + rest.length = text.length)
    (hfound : ∀ m ∈ found?, Fits first text m) (h : ∀ t ∈ threads, Sound first index t) :
    ∀ m ∈ P.run first found? index threads rest, Fits first text m := by
  induction rest generalizing index found? threads with
  | nil =>
    rw [run]
    exact fits_of_accepted hle (by simp at hlen; omega) hfound h
  | cons c rest ih =>
    rw [List.length_cons] at hlen
    have hfound := fits_of_accepted (P := P) hle (by omega) hfound h
    rw [run]
    split
    · exact hfound
    · refine ih (by omega) (by omega) hfound (sound_of_mem_advance ?_)
      intro t ht
      exact h t ((List.takeWhile_prefix _).subset ht)

theorem length_of_after? {text rest : List Char} (h : after? text index = some rest) :
    index + rest.length = text.length := by
  fun_induction after? text index with
  | case1 text =>
    cases h
    exact Nat.zero_add _
  | case2 => contradiction
  | case3 c text index ih =>
    rw [List.length_cons, ← ih h]
    omega

theorem fits_of_matchAt? {text : List Char} {m : Match} (h : P.matchAt? text index = some m) :
    Fits index text m := by
  obtain ⟨rest, hrest, h⟩ := Option.bind_eq_some_iff.1 h
  exact fits_of_run (Nat.le_refl _) (length_of_after? hrest) (by simp) sound_of_mem_start m h

/-- The pattern whose matches the program finds. -/
def pattern (P : Program) : Pattern where
  matchAt? := P.matchAt?
  start_eq _ _ _ h := (fits_of_matchAt? h).1
  within _ _ _ h := (fits_of_matchAt? h).2

end Program

/-- The pattern that an expression denotes. -/
def Expr.pattern (e : Expr) : Pattern :=
  e.program.pattern

end Lexing
