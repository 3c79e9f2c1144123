import Lexing.Proofs.Run

/-!
Using a tokenizer again. Loading a text forgets everything but the lexicon, and of the lexicon's
history only the last setting of each part matters: a later setting of the same part replaces an
earlier one (`Lexicon.set_set`), and settings of different parts do not touch each other
(`Lexicon.set_comm`). A tokenizer that has been used in any way is therefore as good as a new one,
once a text is loaded.
-/

namespace Lexing

/-! ## Settings -/

/-- The parts of a lexicon that may be replaced. -/
inductive Part where
  | symbols
  | keywords
  | comment
  | identifier
  | number
deriving DecidableEq, Repr

namespace Setting

/-- The part that the setting replaces. -/
def part : Setting → Part
  | symbols _ => .symbols
  | keywords _ => .keywords
  | comment _ => .comment
  | identifier _ => .identifier
  | number _ => .number

/-- The settings that no later one replaces: the last one of each part. -/
def latest : List Setting → List Setting
  | [] => []
  | s :: ss => if ∃ r ∈ ss, r.part = s.part then latest ss else s :: latest ss

theorem mem_latest_iff {s : Setting} {ss : List Setting} :
    s ∈ latest ss ↔ ∃ pre post, ss = pre ++ s :: post ∧ ∀ r ∈ post, r.part ≠ s.part := by
  induction ss with
  | nil => simp [latest]
  | cons r ss ih =>
    -- The setting `r` is the first one of the list, or the one asked for comes later.
    have hcons : (∃ pre post, r :: ss = pre ++ s :: post ∧ ∀ r' ∈ post, r'.part ≠ s.part) ↔
        (r = s ∧ ∀ r' ∈ ss, r'.part ≠ s.part) ∨ s ∈ latest ss := by
      rw [ih]
      constructor
      · rintro ⟨pre, post, hss, hpost⟩
        cases pre with
        | nil =>
          obtain ⟨rfl, rfl⟩ := List.cons.inj hss
          exact .inl ⟨rfl, hpost⟩
        | cons r' pre =>
          obtain ⟨rfl, rfl⟩ := List.cons.inj hss
          exact .inr ⟨pre, post, rfl, hpost⟩
      · rintro (⟨rfl, hss⟩ | ⟨pre, post, rfl, hpost⟩)
        · exact ⟨[], ss, rfl, hss⟩
        · exact ⟨r :: pre, post, rfl, hpost⟩
    rw [hcons, latest]
    split
    · rename_i h
      obtain ⟨r', hr', hpart⟩ := h
      refine ⟨.inr, fun h => h.resolve_left ?_⟩
      rintro ⟨rfl, hss⟩
      exact hss r' hr' hpart
    · rename_i h
      rw [List.mem_cons]
      constructor
      · rintro (rfl | hs)
        · exact .inl ⟨rfl, fun r' hr' hpart => h ⟨r', hr', hpart⟩⟩
        · exact .inr hs
      · rintro (⟨rfl, -⟩ | hs)
        · exact .inl rfl
        · exact .inr hs

theorem pairwise_latest (ss : List Setting) :
    (latest ss).Pairwise fun r s => r.part ≠ s.part := by
  induction ss with
  | nil => exact .nil
  | cons s ss ih =>
    rw [latest]
    split
    · exact ih
    · rename_i h
      refine List.pairwise_cons.2 ⟨fun r hr hpart => h ⟨r, ?_, hpart.symm⟩, ih⟩
      obtain ⟨pre, post, rfl, -⟩ := mem_latest_iff.1 hr
      simp

end Setting

namespace Lexicon

variable {r s : Setting}

theorem set_set (h : r.part = s.part) (L : Lexicon) : (L.set r).set s = L.set s := by
  cases r <;> cases s <;> first | rfl | cases h

theorem set_comm (h : r.part ≠ s.part) (L : Lexicon) : (L.set r).set s = (L.set s).set r := by
  cases r <;> cases s <;> first | rfl | exact absurd rfl h

/-- A setting makes no difference if its part is set again. -/
theorem foldl_set_of_exists {ss : List Setting} (h : ∃ r ∈ ss, r.part = s.part) (L : Lexicon) :
    ss.foldl set (L.set s) = ss.foldl set L := by
  induction ss generalizing L with
  | nil =>
    obtain ⟨r, hr, -⟩ := h
    contradiction
  | cons r ss ih =>
    rw [List.foldl_cons, List.foldl_cons]
    by_cases hr : r.part = s.part
    · rw [set_set hr.symm]
    · have hrest : ∃ r' ∈ ss, r'.part = s.part := by simpa [hr] using h
      rw [set_comm (Ne.symm hr), ih hrest]

theorem foldl_set_latest (L : Lexicon) (ss : List Setting) :
    (Setting.latest ss).foldl set L = ss.foldl set L := by
  induction ss generalizing L with
  | nil => rfl
  | cons s ss ih =>
    rw [Setting.latest, List.foldl_cons]
    split
    · rename_i h
      rw [ih, foldl_set_of_exists h]
    · rw [List.foldl_cons, ih]

end Lexicon

/-! ## Histories -/

namespace Tokenizer

variable {t u : Tokenizer}

/-- Only settings change the lexicon, one after the other. -/
theorem lexicon_calls (t : Tokenizer) (cs : List Call) :
    (t.calls cs).2.lexicon = (cs.filterMap Call.setting?).foldl Lexicon.set t.lexicon := by
  induction cs generalizing t with
  | nil => rfl
  | cons c cs ih =>
    rw [calls_cons, ih, lexicon_call, List.filterMap_cons]
    cases c.setting? <;> rfl

theorem load_eq_of_lexicon_eq (h : t.lexicon = u.lexicon) (source : String) :
    t.load source = u.load source := by
  rw [load, load, h]

/-- With the last settings of a history a new tokenizer comes to the same lexicon. -/
theorem lexicon_calls_latest (t : Tokenizer) (cs : List Call) :
    (t.calls ((Setting.latest (cs.filterMap Call.setting?)).map .set)).2.lexicon =
      (t.calls cs).2.lexicon := by
  have hsettings (ss : List Setting) : (ss.map Call.set).filterMap Call.setting? = ss := by
    rw [List.filterMap_map]
    exact List.filterMap_some
  rw [lexicon_calls, lexicon_calls, hsettings, Lexicon.foldl_set_latest]

/-- A used tokenizer into which a text is loaded cannot be told from a new one that has been given
the last settings only, at most one for each part: whatever is called then, the answers are the
same, and so are the position and whether the text is used up. A setting leaves the cursor and the
sequence as they are, and a load leaves the lexicon. -/
theorem calls_load_calls (L : Lexicon) (cs : List Call) (source : String) :
    let history := cs.filterMap Call.setting?
    let settings := Setting.latest history
    let used := (({ lexicon := L } : Tokenizer).calls cs).2.load source
    let fresh := (({ lexicon := L } : Tokenizer).calls (settings.map .set)).2.load source
    (settings.Pairwise fun r s => r.part ≠ s.part) ∧
    (∀ s, s ∈ settings ↔
      ∃ pre post, history = pre ++ s :: post ∧ ∀ r ∈ post, r.part ≠ s.part) ∧
    (∀ ds : List Call, (used.calls ds).1 = (fresh.calls ds).1 ∧
      (used.calls ds).2.position = (fresh.calls ds).2.position ∧
      (used.calls ds).2.isExhausted = (fresh.calls ds).2.isExhausted) ∧
    (∀ (t : Tokenizer) (s : Setting), (t.set s).rest = t.rest ∧ (t.set s).position = t.position ∧
      (t.set s).finished = t.finished) ∧
    ∀ t : Tokenizer, (t.load source).lexicon = t.lexicon := by
  intro history settings used fresh
  have hsame : used = fresh := load_eq_of_lexicon_eq (lexicon_calls_latest _ cs).symm source
  rw [hsame]
  exact ⟨Setting.pairwise_latest history, fun s => Setting.mem_latest_iff,
    fun ds => ⟨rfl, rfl, rfl⟩, fun t s => ⟨rfl, rfl, rfl⟩, fun t => rfl⟩

end Tokenizer

end Lexing
