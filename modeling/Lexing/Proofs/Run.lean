import Lexing.Session
import Lexing.Strict
import Mathlib.Data.List.Forall2

/-!
Runs: what the calls of a history take from a tokenizer. A token is kept together with the tokenizer
before the call that gave it, so that a run knows which lexicon was in force and which text stood at
the cursor. The lexicon may change between two tokens, but not the order of its rules.

`Run` is the whole history of calls without a load, reduced to its two kinds of steps: a call leaves
the cursor alone, or it takes the token at the cursor. What a step keeps is kept by every history
(`run_calls`), and by the sequence that ends with the end of input (`run_sequence`).
-/

namespace Lexing

/-- The token of a reply, if it has one. -/
def Reply.token? : Reply → Option Token
  | .token token? => token?
  | _ => none

/-- Whether the call puts another text into the tokenizer. -/
def Call.isLoad : Call → Bool
  | .load _ => true
  | _ => false

/-- What the call replaces in the lexicon. -/
def Call.setting? : Call → Option Setting
  | .set s => some s
  | _ => none

/-- A token that a call has given, and the tokenizer before that call. -/
structure Taken where
  before : Tokenizer
  token : Token

namespace Taken

/-- The characters of the source that the token covers. -/
def span (g : Taken) : List Char :=
  (g.before.lexicon.lexeme g.before.rest).span

/-- The token has the kind, the value and the span of the lexeme. -/
structure Reads (g : Taken) (l : Lexeme) : Prop where
  kind : g.token.kind = l.kind
  value : g.token.value.toList = l.value
  span : g.span = l.span

end Taken

theorem Tokenizer.reads_nextToken (t : Tokenizer) :
    (Taken.mk t t.nextToken.1).Reads (t.lexicon.lexeme t.rest) :=
  ⟨rfl, String.toList_ofList, rfl⟩

namespace Tokenizer

/-- The tokens that the calls of a history give. -/
def taken (t : Tokenizer) : List Call → List Taken
  | [] => []
  | c :: cs => ((t.call c).1.token?.map (Taken.mk t)).toList ++ (t.call c).2.taken cs

variable {t u v : Tokenizer}

/-- The tokens of a run are those of the replies, in the same order. -/
theorem map_token_taken (t : Tokenizer) (cs : List Call) :
    (t.taken cs).map Taken.token = (t.calls cs).1.filterMap Reply.token? := by
  induction cs generalizing t with
  | nil => rfl
  | cons c cs ih =>
    rw [taken, List.map_append, ih, calls_cons, List.filterMap_cons]
    cases (t.call c).1.token? <;> rfl

/-! ## Steps -/

/-- Two tokenizers stand at the same place, before the same text and with the same rules. -/
structure SameCursor (t u : Tokenizer) : Prop where
  rest : u.rest = t.rest
  position : u.position = t.position
  rules : u.lexicon.rules = t.lexicon.rules

theorem SameCursor.refl (t : Tokenizer) : t.SameCursor t :=
  ⟨rfl, rfl, rfl⟩

theorem SameCursor.trans (htu : t.SameCursor u) (huv : u.SameCursor v) : t.SameCursor v :=
  ⟨huv.rest.trans htu.rest, huv.position.trans htu.position, huv.rules.trans htu.rules⟩

theorem lexicon_of_next? {token : Token} (h : t.next? = some (token, u)) :
    u.lexicon = t.lexicon := by
  obtain ⟨-, -, rfl⟩ := next?_eq_some h
  rfl

/-- The sequence has ended behind the end of input, and nowhere before. -/
theorem finished_of_next? {token : Token} (h : t.next? = some (token, u)) :
    u.finished = token.isEnd := by
  obtain ⟨-, -, rfl⟩ := next?_eq_some h
  rfl

theorem sameCursor_next? {token : Token} (h : t.next? = some (token, u)) :
    token = t.nextToken.1 ∧ t.nextToken.2.SameCursor u := by
  obtain ⟨-, rfl, rfl⟩ := next?_eq_some h
  exact ⟨rfl, rfl, rfl, rfl⟩

/-- Only a setting changes the lexicon. -/
theorem lexicon_call (t : Tokenizer) (c : Call) :
    (t.call c).2.lexicon = c.setting?.toList.foldl Lexicon.set t.lexicon := by
  cases c with
  | load _ | nextToken | set _ => rfl
  | next =>
    cases hn : t.next? with
    | none => simp [call, hn, Call.setting?]
    | some r => simpa [call, hn, Call.setting?] using lexicon_of_next? hn

theorem lexicon_of_mem_taken {cs : List Call} (h : ∀ c ∈ cs, c.setting? = none) {g : Taken}
    (hg : g ∈ t.taken cs) : g.before.lexicon = t.lexicon := by
  induction cs generalizing t with
  | nil => contradiction
  | cons c cs ih =>
    obtain ⟨hc, hcs⟩ := List.forall_mem_cons.1 h
    rcases List.mem_append.1 hg with hg | hg
    · obtain ⟨token, -, rfl⟩ : ∃ token, _ ∧ Taken.mk t token = g := by simpa using hg
      rfl
    · rw [ih hcs hg, lexicon_call, hc]
      rfl

/-- A call that loads nothing either gives no token and leaves the cursor where it is, or gives the
token at the cursor and moves behind it. -/
theorem call_cases {c : Call} (h : c.isLoad = false) (t : Tokenizer) :
    (t.call c).1.token? = none ∧ t.SameCursor (t.call c).2 ∨
      (t.call c).1.token? = some t.nextToken.1 ∧ t.nextToken.2.SameCursor (t.call c).2 := by
  cases c with
  | load source => contradiction
  | nextToken => exact .inr ⟨rfl, .refl _⟩
  | set s => exact .inl ⟨rfl, rfl, rfl, Lexicon.rules_set t.lexicon s⟩
  | next =>
    simp only [call]
    cases hn : t.next? with
    | none => exact .inl ⟨rfl, .refl _⟩
    | some r =>
      obtain ⟨token, u⟩ := r
      obtain ⟨rfl, hu⟩ := sameCursor_next? hn
      exact .inr ⟨rfl, hu⟩

/-- The tokens that have been taken on the way from `t` to another tokenizer. -/
inductive Run (t : Tokenizer) : List Taken → Tokenizer → Prop
  | start : Run t [] t
  /-- A step that leaves the cursor where it is. -/
  | silent {gs u v} (run : Run t gs u) (same : u.SameCursor v) : Run t gs v
  /-- A step that takes the token at the cursor. -/
  | token {gs u v} (run : Run t gs u) (same : u.nextToken.2.SameCursor v) :
      Run t (gs ++ [⟨u, u.nextToken.1⟩]) v

/-- A run goes on with the tokens of further calls. -/
theorem Run.calls {gs : List Taken} (hrun : Run t gs u) {cs : List Call}
    (h : ∀ c ∈ cs, c.isLoad = false) : Run t (gs ++ u.taken cs) (u.calls cs).2 := by
  induction cs generalizing gs u with
  | nil => simpa [taken] using hrun
  | cons c cs ih =>
    have hcs : ∀ d ∈ cs, d.isLoad = false := fun d hd => h d (List.mem_cons_of_mem _ hd)
    rw [taken, calls_cons]
    rcases call_cases (h c (by simp)) u with ⟨hnone, hsame⟩ | ⟨hsome, hsame⟩
    · rw [hnone]
      exact ih (hrun.silent hsame) hcs
    · rw [hsome, ← List.append_assoc]
      exact ih (hrun.token hsame) hcs

/-- Every history of calls without a load is a run. -/
theorem run_calls {cs : List Call} (h : ∀ c ∈ cs, c.isLoad = false) (t : Tokenizer) :
    Run t (t.taken cs) (t.calls cs).2 :=
  Run.start.calls h

/-- Each token of a run is the one at the cursor that a shorter run has led to. -/
theorem Run.before {gs : List Taken} (h : Run t gs v) {g : Taken} (hg : g ∈ gs) :
    ∃ gs', Run t gs' g.before ∧ g.token = g.before.nextToken.1 := by
  induction h with
  | start => contradiction
  | silent _ _ ih => exact ih hg
  | token run _ ih =>
    rcases List.mem_append.1 hg with hg | hg
    · exact ih hg
    · obtain rfl := List.mem_singleton.1 hg
      exact ⟨_, run, rfl⟩

theorem Run.token_eq {gs : List Taken} (h : Run t gs v) {g : Taken} (hg : g ∈ gs) :
    g.token = g.before.nextToken.1 := by
  obtain ⟨_, -, htoken⟩ := h.before hg
  exact htoken

/-- What holds between the tokens of every run and the one at its cursor holds between any two
tokens of a run. -/
theorem Run.pairwise {R : Taken → Taken → Prop}
    (hR : ∀ {gs u}, Run t gs u → ∀ g ∈ gs, R g ⟨u, u.nextToken.1⟩) {gs : List Taken}
    (h : Run t gs v) : gs.Pairwise R := by
  induction h with
  | start => exact .nil
  | silent _ _ ih => exact ih
  | token run _ ih =>
    refine List.pairwise_append.2 ⟨ih, List.pairwise_singleton _ _, ?_⟩
    intro g hg g' hg'
    obtain rfl := List.mem_singleton.1 hg'
    exact hR run g hg

/-! ## Two tokenizers side by side -/

/-- What holds of two tokenizers before every token that they give, and makes them give tokens that
are related, relates all their tokens. -/
theorem drain_lockstep {S : Tokenizer → Tokenizer → Prop} {R : Token → Token → Prop}
    (ended : ∀ {t u}, S t u → t.next? = none → u.next? = none)
    (step : ∀ {t u x t'}, S t u → t.next? = some (x, t') →
      ∃ y u', u.next? = some (y, u') ∧ R x y ∧ S t' u') (h : S t u) :
    List.Forall₂ R t.drain.1 u.drain.1 := by
  induction t using next_induction generalizing u with
  | ended t hn =>
    rw [drain_of_next?_eq_none hn, drain_of_next?_eq_none (ended h hn)]
    exact .nil
  | step t x t' hn ih =>
    obtain ⟨y, u', hun, hxy, hrel⟩ := step h hn
    rw [drain_of_next?_eq_some hn, drain_of_next?_eq_some hun]
    exact .cons hxy (ih hrel)

/-- The tokenizer with another lexicon. -/
def withLexicon (t : Tokenizer) (L : Lexicon) : Tokenizer :=
  { t with lexicon := L }

section Congruence

variable {E : Lexicon → Lexicon → Prop} {L : Lexicon}

/-- One call answers the same with either of two related lexicons, and leaves them related. -/
theorem call_congr (lexeme : ∀ {L L'}, E L L' → ∀ text, L.lexeme text = L'.lexeme text) {c : Call}
    (set : ∀ s, c = .set s → ∀ {L L'}, E L L' → E (L.set s) (L'.set s)) (h : E t.lexicon L) :
    ∃ L', E (t.call c).2.lexicon L' ∧
      (t.withLexicon L).call c = ((t.call c).1, (t.call c).2.withLexicon L') := by
  have hnext : (t.withLexicon L).nextToken = (t.nextToken.1, t.nextToken.2.withLexicon L) := by
    simp [nextToken, withLexicon, lexeme h]
  cases c with
  | load source => exact ⟨L, h, rfl⟩
  | nextToken =>
    refine ⟨L, h, ?_⟩
    simp [call, hnext]
  | set s => exact ⟨L.set s, set s rfl h, rfl⟩
  | next =>
    refine ⟨L, (lexicon_call t .next).symm ▸ h, ?_⟩
    by_cases hf : t.finished = true
    · have hf' : (t.withLexicon L).finished = true := hf
      simp [call, next?, hf, hf']
    · have hf' : ¬(t.withLexicon L).finished = true := hf
      simp only [call, next?, hf, hf', hnext]
      rfl

/-- Lexicons that find the same in every text, and do so still when a history has replaced parts of
them, give the same answers to the history. -/
theorem calls_congr (lexeme : ∀ {L L'}, E L L' → ∀ text, L.lexeme text = L'.lexeme text)
    {cs : List Call} (set : ∀ s, .set s ∈ cs → ∀ {L L'}, E L L' → E (L.set s) (L'.set s))
    (h : E t.lexicon L) : (t.calls cs).1 = ((t.withLexicon L).calls cs).1 := by
  induction cs generalizing t L with
  | nil => rfl
  | cons c cs ih =>
    obtain ⟨L', hE, hcall⟩ := call_congr lexeme (fun s hs => set s (hs ▸ List.mem_cons_self)) h
    rw [calls_cons, calls_cons, hcall, ih (fun s hs => set s (List.mem_cons_of_mem c hs)) hE]

end Congruence

/-! ## The sequence that ends with the end of input -/

/-- The tokens that `next?` still gives, each with the tokenizer before it. -/
def sequence (t : Tokenizer) : List Taken :=
  match _ : t.next? with
  | none => []
  | some (token, u) => ⟨t, token⟩ :: u.sequence
termination_by t.pending
decreasing_by exact pending_lt_of_next? ‹_›

theorem sequence_of_next?_eq_none (h : t.next? = none) : t.sequence = [] := by
  rw [sequence]
  split <;> simp_all

theorem sequence_of_next?_eq_some {token : Token} (h : t.next? = some (token, u)) :
    t.sequence = ⟨t, token⟩ :: u.sequence := by
  rw [sequence]
  split
  · simp_all
  · rename_i h'
    cases h.symm.trans h'
    rfl

theorem drain_eq_sequence (t : Tokenizer) : t.drain.1 = t.sequence.map Taken.token := by
  induction t using next_induction with
  | ended t h => rw [drain_of_next?_eq_none h, sequence_of_next?_eq_none h, List.map_nil]
  | step t token u h ih =>
    rw [drain_of_next?_eq_some h, sequence_of_next?_eq_some h, List.map_cons, ih]

/-- As many calls of `next` as there can be tokens give the whole sequence. -/
theorem taken_replicate_next {n : Nat} (h : t.pending ≤ n) :
    t.taken (List.replicate n .next) = t.sequence := by
  induction t using next_induction generalizing n with
  | ended t hn =>
    rw [sequence_of_next?_eq_none hn]
    clear h
    induction n with
    | zero => rfl
    | succ n ih => simpa [List.replicate_succ, taken, call, hn, Reply.token?] using ih
  | step t token u hn ih =>
    have hlt := pending_lt_of_next? hn
    obtain ⟨m, rfl⟩ : ∃ m, n = m + 1 := ⟨n - 1, by omega⟩
    rw [sequence_of_next?_eq_some hn, ← ih (n := m) (by omega)]
    simp [List.replicate_succ, taken, call, hn, Reply.token?]

theorem run_sequence (t : Tokenizer) : ∃ v, Run t t.sequence v := by
  have h : ∀ c ∈ List.replicate t.pending Call.next, c.isLoad = false := by
    intro c hc
    rw [List.eq_of_mem_replicate hc]
    rfl
  exact ⟨_, taken_replicate_next (Nat.le_refl _) ▸ run_calls h t⟩

/-- The sequence starts with the token that `next?` gives. -/
theorem next?_of_sequence_eq_cons {g : Taken} {post : List Taken} (h : t.sequence = g :: post) :
    ∃ u, t.next? = some (g.token, u) ∧ g.before = t ∧ post = u.sequence := by
  cases hn : t.next? with
  | none => simp [sequence_of_next?_eq_none hn] at h
  | some r =>
    obtain ⟨token, u⟩ := r
    rw [sequence_of_next?_eq_some hn] at h
    obtain ⟨rfl, rfl⟩ := List.cons.inj h
    exact ⟨u, rfl, rfl, rfl⟩

/-- Each token of the sequence is given by `next?`, and the sequence goes on behind it. -/
theorem next?_of_sequence_eq {pre post : List Taken} {g : Taken}
    (h : t.sequence = pre ++ g :: post) :
    ∃ u, g.before.next? = some (g.token, u) ∧ post = u.sequence := by
  induction pre generalizing t with
  | nil =>
    obtain ⟨u, hn, hbefore, hpost⟩ := next?_of_sequence_eq_cons h
    exact ⟨u, hbefore ▸ hn, hpost⟩
  | cons g' pre ih =>
    obtain ⟨u, -, -, hpost⟩ := next?_of_sequence_eq_cons h
    exact ih hpost.symm

theorem sequence_eq_nil_iff : t.sequence = [] ↔ t.finished = true := by
  rw [← next?_eq_none_iff]
  constructor
  · intro h
    cases hn : t.next? with
    | none => rfl
    | some r => simp [sequence_of_next?_eq_some hn] at h
  · exact sequence_of_next?_eq_none

/-- The sequence ends where no text is left, and nowhere before. -/
theorem eq_nil_of_sequence_iff {pre post : List Taken} {g : Taken}
    (h : t.sequence = pre ++ g :: post) : post = [] ↔ g.before.rest = [] := by
  obtain ⟨u, hn, rfl⟩ := next?_of_sequence_eq h
  obtain ⟨-, htoken, rfl⟩ := next?_eq_some hn
  rw [sequence_eq_nil_iff, htoken, isEnd_nextToken_iff]

/-- The sequence has a last token, with no text left for it. -/
theorem exists_sequence_eq_concat (h : t.finished = false) :
    ∃ pre g, t.sequence = pre ++ [g] ∧ g.before.rest = [] := by
  have hne : t.sequence ≠ [] := by
    rw [ne_eq, sequence_eq_nil_iff, h]
    decide
  have hseq := (List.dropLast_concat_getLast hne).symm
  exact ⟨_, _, hseq, (eq_nil_of_sequence_iff hseq).1 rfl⟩

theorem Run.sequence_eq {gs pre post : List Taken} {g : Taken} (h : Run t gs u)
    (hseq : u.sequence = pre ++ g :: post) : Run t (gs ++ pre) g.before := by
  induction pre generalizing gs u with
  | nil =>
    obtain ⟨-, -, hbefore, -⟩ := next?_of_sequence_eq_cons hseq
    rw [hbefore, List.append_nil]
    exact h
  | cons g' pre ih =>
    obtain ⟨u', hn, hbefore, hpost⟩ := next?_of_sequence_eq_cons hseq
    obtain ⟨htoken, hsame⟩ := sameCursor_next? hn
    have hstep := h.token hsame
    rw [← htoken, ← hbefore] at hstep
    simpa using ih hstep hpost.symm

/-- The tokens before one of the sequence are a run to the tokenizer before that one. -/
theorem run_of_sequence_eq {pre post : List Taken} {g : Taken}
    (h : t.sequence = pre ++ g :: post) : Run t pre g.before :=
  Run.start.sequence_eq h

/-- The lexicon stays the same along the sequence. -/
theorem lexicon_of_mem_sequence {g : Taken} (h : g ∈ t.sequence) :
    g.before.lexicon = t.lexicon := by
  rw [← taken_replicate_next (Nat.le_refl _)] at h
  refine lexicon_of_mem_taken (fun c hc => ?_) h
  rw [List.eq_of_mem_replicate hc]
  rfl

theorem token_of_mem_sequence {g : Taken} (h : g ∈ t.sequence) :
    g.token = g.before.nextToken.1 := by
  obtain ⟨_, hrun⟩ := run_sequence t
  exact hrun.token_eq h

/-- Every token that is still given is the one at the cursor of some state with the same lexicon. -/
theorem exists_of_mem_drain {token : Token} (h : token ∈ t.drain.1) :
    ∃ u : Tokenizer, u.lexicon = t.lexicon ∧ token = u.nextToken.1 := by
  rw [drain_eq_sequence] at h
  obtain ⟨g, hg, rfl⟩ := List.mem_map.1 h
  exact ⟨g.before, lexicon_of_mem_sequence hg, token_of_mem_sequence hg⟩

/-- Taking the tokens before one of the sequence leads to the tokenizer before that one. -/
theorem take_of_sequence_eq {pre post : List Taken} {g : Taken}
    (h : t.sequence = pre ++ g :: post) : t.take pre.length = (pre.map Taken.token, g.before) := by
  induction pre generalizing t with
  | nil =>
    obtain ⟨-, -, hbefore, -⟩ := next?_of_sequence_eq_cons h
    rw [hbefore]
    rfl
  | cons g' pre ih =>
    obtain ⟨u, hn, -, hpost⟩ := next?_of_sequence_eq_cons h
    simp [take, hn, ih hpost.symm]

/-- Lexicons that find the same in every text give the same tokens. -/
theorem drain_withLexicon {L : Lexicon} (h : ∀ text, t.lexicon.lexeme text = L.lexeme text) :
    (t.withLexicon L).drain.1 = t.drain.1 := by
  let cs := List.replicate t.pending Call.next
  have hcalls : (t.calls cs).1 = ((t.withLexicon L).calls cs).1 :=
    calls_congr (E := fun L L' => ∀ text, L.lexeme text = L'.lexeme text) (fun h => h)
      (fun s hs => by simp [cs] at hs) h
  have hdrain (u : Tokenizer) (hu : u.pending = t.pending) :
      u.drain.1 = (u.calls cs).1.filterMap Reply.token? := by
    rw [← map_token_taken, taken_replicate_next (Nat.le_of_eq hu), drain_eq_sequence]
  rw [hdrain (t.withLexicon L) rfl, hdrain t rfl, hcalls]

theorem drain_eq_nil_iff : t.drain.1 = [] ↔ t.finished = true := by
  rw [drain_eq_sequence, List.map_eq_nil_iff, sequence_eq_nil_iff]

/-- Taking tokens one by one cuts the sequence in two. -/
theorem drain_take (t : Tokenizer) (n : Nat) :
    (t.take n).1 = t.drain.1.take n ∧ (t.take n).2.drain.1 = t.drain.1.drop n := by
  induction n generalizing t with
  | zero => exact ⟨rfl, rfl⟩
  | succ n ih =>
    cases hn : t.next? with
    | none => simp [take, hn, drain_of_next?_eq_none hn]
    | some r =>
      obtain ⟨token, u⟩ := r
      obtain ⟨hinit, hrest⟩ := ih u
      rw [drain_of_next?_eq_some hn, List.take_succ_cons, List.drop_succ_cons, ← hinit, ← hrest]
      simp [take, hn]

theorem lexicon_take (t : Tokenizer) (n : Nat) : (t.take n).2.lexicon = t.lexicon := by
  induction n generalizing t with
  | zero => rfl
  | succ n ih =>
    cases hn : t.next? with
    | none => simp [take, hn]
    | some r =>
      obtain ⟨token, u⟩ := r
      simpa [take, hn, ← lexicon_of_next? hn] using ih u

/-- Strict reading fails at the first unknown token of the sequence. -/
theorem sequence_of_drainStrict_eq_error {d : Diagnostic} (h : t.drainStrict = .error d) :
    ∃ pre g post, t.sequence = pre ++ g :: post ∧ g.token.kind = .unknown ∧
      d = .ofUnknown g.token ∧ ∀ g' ∈ pre, g'.token.kind ≠ .unknown := by
  rw [drainStrict_eq, drain_eq_sequence, List.find?_map] at h
  cases hf : t.sequence.find? ((·.kind = .unknown) ∘ Taken.token) with
  | none =>
    rw [hf] at h
    contradiction
  | some g =>
    rw [hf] at h
    cases h
    obtain ⟨hk, pre, post, hseq, hpre⟩ := List.find?_eq_some_iff_append.1 hf
    exact ⟨pre, g, post, hseq, by simpa using hk, rfl, by simpa using hpre⟩

end Tokenizer

namespace Lexicon

/-- The first token of a source is what the source starts with. -/
theorem head?_tokenize (L : Lexicon) (source : String) :
    (L.tokenize source).head? =
      some ⟨(L.lexeme source.toList).kind, String.ofList (L.lexeme source.toList).value, .start⟩ := by
  have hnext : (Tokenizer.load { lexicon := L } source).next? = some (_, _) := rfl
  rw [tokenize, Tokenizer.drain_of_next?_eq_some hnext]
  rfl

theorem tokenize_congr {L L' : Lexicon} (h : ∀ text, L.lexeme text = L'.lexeme text)
    (source : String) : L.tokenize source = L'.tokenize source :=
  (Tokenizer.drain_withLexicon (t := .load { lexicon := L } source) h).symm

end Lexicon

theorem tokenize_eq_sequence (source : String) :
    tokenize source = (Tokenizer.load {} source).sequence.map Taken.token :=
  Tokenizer.drain_eq_sequence _

end Lexing
