import Lexing.Proofs.Progress
import Mathlib.Data.List.Induction

/-!
The two ways of taking tokens, in any mixture and with any changes of the lexicon in between. Both
move the same cursor, but only `next` keeps account of whether the sequence has ended: it has when
`next` has answered the end of input since a text was loaded last (`Ended`). Neither `nextToken` nor
a change of the lexicon ends the sequence or starts it again.

As long as the lexicon stays the same, it makes no difference for the tokens which of the two takes
them: every answer gives the next token of the source until all have been given.
-/

namespace Lexing

/-- Whether the call asks for the next token of the sequence. -/
def Call.isNext : Call → Bool
  | .next => true
  | _ => false

namespace Tokenizer

variable {t u v : Tokenizer} {gs : List Taken} {L : Lexicon}

/-! ## The end of the sequence -/

/-- A call of `next` has been answered by the end of input, and no text has been loaded since. -/
def Ended (t : Tokenizer) (cs : List Call) : Prop :=
  ∃ pre post token, cs = pre ++ .next :: post ∧ (∀ c ∈ post, c.isLoad = false) ∧
    ((t.calls pre).2.call .next).1 = .token (some token) ∧ token.kind = .endOfInput

theorem Ended.append {cs ds : List Call} (h : t.Ended cs) (hds : ∀ d ∈ ds, d.isLoad = false) :
    t.Ended (cs ++ ds) := by
  obtain ⟨pre, post, token, rfl, hpost, htoken, hk⟩ := h
  refine ⟨pre, post ++ ds, token, by simp, ?_, htoken, hk⟩
  exact List.forall_mem_append.2 ⟨hpost, hds⟩

theorem call_next_eq_none_iff : (t.call .next).1 = .token none ↔ t.finished = true := by
  rw [← next?_eq_none_iff]
  cases hn : t.next? <;> simp [call, hn]

/-- The sequence has ended after a call if it had ended before and the call loads nothing, or if the
call is `next` and its answer the end of input. -/
theorem finished_call_iff {c : Call} :
    (t.call c).2.finished = true ↔
      c.isLoad = false ∧ t.finished = true ∨
        c = .next ∧ ∃ token, (t.call c).1 = .token (some token) ∧ token.kind = .endOfInput := by
  cases c with
  | load source => simp [call, load, Call.isLoad]
  | nextToken => simp [call, nextToken, Call.isLoad]
  | set s => simp [call, set, Call.isLoad]
  | next =>
    cases hn : t.next? with
    | none => simp [call, hn, Call.isLoad, next?_eq_none_iff.1 hn]
    | some r =>
      obtain ⟨token, u⟩ := r
      have hf := (next?_eq_some hn).1
      simp [call, hn, hf, finished_of_next? hn]

theorem ended_concat_iff {cs : List Call} {c : Call} :
    t.Ended (cs ++ [c]) ↔
      c.isLoad = false ∧ t.Ended cs ∨
        c = .next ∧ ∃ token, ((t.calls cs).2.call c).1 = .token (some token) ∧
          token.kind = .endOfInput := by
  constructor
  · rintro ⟨pre, post, token, hcs, hpost, htoken, hk⟩
    rcases List.eq_nil_or_concat post with rfl | ⟨post, d, rfl⟩
    · obtain ⟨rfl, hc⟩ := List.append_inj' hcs rfl
      obtain rfl := List.singleton_inj.1 hc
      exact .inr ⟨rfl, token, htoken, hk⟩
    · rw [List.concat_eq_append] at hcs hpost
      rw [← List.cons_append, ← List.append_assoc] at hcs
      obtain ⟨rfl, hc⟩ := List.append_inj' hcs rfl
      obtain rfl := List.singleton_inj.1 hc
      obtain ⟨hpost, hd⟩ := List.forall_mem_append.1 hpost
      exact .inl ⟨hd c (by simp), pre, post, token, rfl, hpost, htoken, hk⟩
  · rintro (⟨hc, hended⟩ | ⟨rfl, token, htoken, hk⟩)
    · exact hended.append (by simpa using hc)
    · exact ⟨cs, [], token, rfl, by simp, htoken, hk⟩

/-- The history of a tokenizer tells whether its sequence has ended. -/
theorem finished_calls_iff (hf : t.finished = false) (cs : List Call) :
    (t.calls cs).2.finished = true ↔ t.Ended cs := by
  induction cs using List.reverseRecOn with
  | nil => simp [hf, Ended]
  | append_singleton cs c ih =>
    rw [calls_append, ended_concat_iff, ← ih]
    exact finished_call_iff

theorem finished_calls_eq {cs : List Call} (h : ∀ c ∈ cs, c.isLoad = false ∧ c.isNext = false) :
    (t.calls cs).2.finished = t.finished := by
  induction cs generalizing t with
  | nil => rfl
  | cons c cs ih =>
    obtain ⟨⟨hload, hnext⟩, hcs⟩ := List.forall_mem_cons.1 h
    rw [calls_cons, ih hcs]
    cases c with
    | load _ | next => contradiction
    | nextToken | set _ => rfl

/-! ## At the end of the text -/

/-- Whatever is called at the end of the text, the answers are the end of input, and the next one is
too. -/
theorem Run.token_eq_end (h : Run t gs v) (hr : t.rest = []) {g : Taken} (hg : g ∈ gs) :
    g.token = ⟨.endOfInput, "", t.position⟩ := by
  obtain ⟨_, hrun, htoken⟩ := h.before hg
  have hsame := hrun.sameCursor hr
  rw [htoken, token_of_rest_eq_nil (hsame.rest.trans hr), hsame.position]

theorem call_next_of_rest_eq_nil (hf : t.finished = false) (hr : t.rest = []) :
    t.call .next = (.token (some ⟨.endOfInput, "", t.position⟩), { t with finished := true }) := by
  simp [call, next?, hf, token_of_rest_eq_nil hr, nextToken_of_rest_eq_nil hr, Token.isEnd]

/-- However often `nextToken` has answered the end of input, `next` still does so once. -/
theorem calls_of_rest_eq_nil (hf : t.finished = false) (hr : t.rest = []) {cs : List Call}
    (h : ∀ c ∈ cs, c.isLoad = false ∧ c.isNext = false) :
    let eof : Token := ⟨.endOfInput, "", t.position⟩
    let u := (t.calls cs).2
    (∀ token ∈ (t.calls cs).1.filterMap Reply.token?, token = eof) ∧
      (u.call .next).1 = .token (some eof) ∧ ((u.call .next).2.call .next).1 = .token none := by
  intro eof u
  have hrun : Run t (t.taken cs) u := run_calls (fun c hc => (h c hc).1) t
  have hsame : t.SameCursor u := hrun.sameCursor hr
  have hfinished : u.finished = false := (finished_calls_eq h).trans hf
  rw [call_next_of_rest_eq_nil hfinished (hsame.rest.trans hr), hsame.position]
  refine ⟨fun token htoken => ?_, rfl, call_next_eq_none_iff.2 rfl⟩
  rw [← map_token_taken] at htoken
  obtain ⟨g, hg, rfl⟩ := List.mem_map.1 htoken
  exact hrun.token_eq_end hr hg

/-! ## Tokens of one lexicon -/

/-- A tokenizer at the same place, with the lexicon `L` and its sequence still to come. -/
def anew (t : Tokenizer) (L : Lexicon) : Tokenizer :=
  { lexicon := L, rest := t.rest, position := t.position }

theorem SameCursor.anew_eq (h : t.SameCursor u) (L : Lexicon) : u.anew L = t.anew L := by
  rw [anew, anew, h.rest, h.position]

theorem drain_anew (hr : t.rest ≠ []) :
    (t.anew t.lexicon).drain.1 =
      t.nextToken.1 :: (t.nextToken.2.anew t.lexicon).drain.1 := by
  have hend : t.nextToken.1.isEnd = false := isEnd_nextToken_eq_false_iff.2 hr
  have hn : (t.anew t.lexicon).next? = some (t.nextToken.1, t.nextToken.2.anew t.lexicon) := by
    change some (t.nextToken.1, ({ t.nextToken.2 with finished := t.nextToken.1.isEnd })) = _
    rw [hend]
    rfl
  rw [drain_of_next?_eq_some hn]

/-- The tokens that cover text, of those that have been taken. -/
def delivered (gs : List Taken) : List Token :=
  (gs.map Taken.token).filter fun token => !token.isEnd

/-- A run in one lexicon delivers the sequence from its start, up to where it stands. -/
theorem Run.delivered_append (h : Run t gs v) (hL : ∀ g ∈ gs, g.before.lexicon = L) :
    delivered gs ++ (v.anew L).drain.1 = (t.anew L).drain.1 := by
  induction h with
  | start => rfl
  | silent _ same ih => rw [same.anew_eq, ih hL]
  | @token gs u v _ same ih =>
    obtain ⟨hgs, hu⟩ := List.forall_mem_append.1 hL
    have hlexicon : u.lexicon = L := by simpa using hu
    rw [← ih hgs, same.anew_eq]
    by_cases hr : u.rest = []
    · simp [delivered, nextToken_of_rest_eq_nil hr, isEnd_nextToken, isExhausted, hr]
    · subst hlexicon
      rw [drain_anew hr]
      simp [delivered, isEnd_nextToken, isExhausted, hr]

/-- Once a run has come to the end of the text it stays there. -/
theorem Run.rest_eq_nil (h : Run t gs v) {g : Taken} (hg : g ∈ gs) (he : g.token.isEnd = true) :
    v.rest = [] := by
  induction h with
  | start => contradiction
  | silent _ same ih => rw [same.rest, ih hg]
  | @token gs u v _ same ih =>
    have hu : u.rest = [] := by
      rcases List.mem_append.1 hg with hg | hg
      · exact ih hg
      · obtain rfl := List.mem_singleton.1 hg
        exact isEnd_nextToken_iff.1 he
    rw [same.rest, nextToken_of_rest_eq_nil hu, hu]

/-- Every answer of a run in one lexicon delivers a token, until all have been delivered. -/
theorem Run.length_delivered (h : Run t gs v) (hL : ∀ g ∈ gs, g.before.lexicon = L) :
    (delivered gs).length =
      min gs.length ((t.anew L).drain.1.countP fun token => !token.isEnd) := by
  have hcount : ((delivered gs).countP fun token => !token.isEnd) = (delivered gs).length :=
    List.countP_eq_length.2 fun token hmem => (List.mem_filter.1 hmem).2
  rw [← h.delivered_append hL, List.countP_append, hcount]
  by_cases hend : ∃ g ∈ gs, g.token.isEnd = true
  · -- No text is left, so that nothing but the end of input is still to come.
    obtain ⟨g, hg, he⟩ := hend
    obtain ⟨honce, hlength⟩ := endsOnce_drain (t := v.anew L) rfl
    have hrest : (v.anew L).rest = [] := h.rest_eq_nil hg he
    have hnone := honce.countP_add_one
    have hle : (delivered gs).length ≤ gs.length := by
      simpa [delivered] using List.length_filter_le (fun token => !token.isEnd) (gs.map Taken.token)
    rw [hrest, List.length_nil] at hlength
    omega
  · have hall : delivered gs = gs.map Taken.token := by
      rw [delivered, List.filter_eq_self]
      simpa [Token.isEnd] using hend
    rw [hall, List.length_map]
    omega

/-- `next` answers nothing exactly when it has answered the end of input since the last load. From
then on it answers nothing until the next load. Taking tokens by `nextToken` and changing the
lexicon make no difference to this: at the end of the text `next` still answers the end of input
once, where `nextToken` has answered it before, and then nothing.

As long as the lexicon is `M`, the two together deliver the first tokens of the source in `M`, one
for each answer until there are no more. -/
theorem iteration_calls (L : Lexicon) (cs : List Call) :
    let t : Tokenizer := { lexicon := L }
    let u := (t.calls cs).2
    ((u.call .next).1 = .token none ↔ t.Ended cs) ∧
      (∀ ds : List Call, (∀ d ∈ ds, d.isLoad = false) →
        (∀ token, (u.call .next).1 = .token (some token) → token.kind = .endOfInput →
          ((t.calls (cs ++ .next :: ds)).2.call .next).1 = .token none) ∧
        ((u.call .next).1 = .token none →
          ((t.calls (cs ++ ds)).2.call .next).1 = .token none)) ∧
      (∀ ds : List Call, (∀ d ∈ ds, d.isLoad = false ∧ d.isNext = false) →
        let v := (t.calls (cs ++ ds)).2
        ((v.call .next).1 = .token none ↔ (u.call .next).1 = .token none) ∧
          (u.nextToken.1.kind = .endOfInput → ¬t.Ended cs →
            (∀ token ∈ (u.calls ds).1.filterMap Reply.token?,
              token = ⟨.endOfInput, "", u.position⟩) ∧
            (v.call .next).1 = .token (some ⟨.endOfInput, "", u.position⟩) ∧
            ((v.call .next).2.call .next).1 = .token none)) ∧
      ∀ (source : String) (ds : List Call) (M : Lexicon), (∀ d ∈ ds, d.isLoad = false) →
        let gs := (u.load source).taken ds
        (∀ g ∈ gs, g.before.lexicon = M) →
          delivered gs <+: M.tokenize source ∧
            (delivered gs).length =
              min gs.length ((M.tokenize source).countP fun token => !token.isEnd) := by
  intro t u
  have hnone (es : List Call) : ((t.calls es).2.call .next).1 = .token none ↔ t.Ended es := by
    rw [call_next_eq_none_iff, finished_calls_iff rfl]
  refine ⟨hnone cs, fun ds hds => ⟨fun token htoken hk => ?_, fun h => ?_⟩, fun ds hds => ?_, ?_⟩
  · exact (hnone _).2 ⟨cs, ds, token, rfl, hds, htoken, hk⟩
  · exact (hnone _).2 (((hnone cs).1 h).append hds)
  · intro v
    have hv : v = (u.calls ds).2 := by rw [show v = (t.calls (cs ++ ds)).2 from rfl, calls_append]
    rw [hv, call_next_eq_none_iff, call_next_eq_none_iff, finished_calls_eq hds]
    refine ⟨Iff.rfl, fun hk hended => calls_of_rest_eq_nil ?_ (kind_nextToken_iff.1 hk) hds⟩
    rw [Bool.eq_false_iff, ne_eq, ← call_next_eq_none_iff, hnone cs]
    exact hended
  · intro source ds M hds gs hM
    have hrun := run_calls hds (u.load source)
    exact ⟨⟨_, hrun.delivered_append hM⟩, hrun.length_delivered hM⟩

/-- The first text is read to its end by `next`. Of the second one, `nextToken` takes all tokens
while the lexicon changes, so that only the end of input is left for `next`. -/
theorem iteration_calls_of_reload :
    let cs : List Call := [.load "a", .next, .next]
    let es : List Call :=
      cs ++ [.load "b é", .nextToken, .set (.symbols ["é"]), .nextToken, .nextToken]
    let ds : List Call := [.nextToken, .set (.keywords ["b"]), .nextToken]
    let t : Tokenizer := {}
    let u := (t.calls es).2
    let v := (t.calls (es ++ ds)).2
    let gs := (u.load "if x").taken [.next, .nextToken, .next, .nextToken, .next]
    t.Ended cs ∧ ((t.calls (cs ++ ds)).2.call .next).1 = .token none ∧
      ¬t.Ended es ∧ u.nextToken.1.kind = .endOfInput ∧
      (v.call .next).1 = .token (some ⟨.endOfInput, "", ⟨1, 4⟩⟩) ∧
      ((v.call .next).2.call .next).1 = .token none ∧
      (∀ g ∈ gs, g.before.lexicon = u.lexicon) ∧
      delivered gs <+: u.lexicon.tokenize "if x" ∧ (delivered gs).length = 3 := by
  intro cs es ds t u v gs
  have hds : ∀ d ∈ ds, d.isLoad = false ∧ d.isNext = false := by decide
  have hend : u.nextToken.1.kind = .endOfInput := by decide +kernel
  have hM : ∀ g ∈ gs, g.before.lexicon = (u.load "if x").lexicon := fun g hg =>
    lexicon_of_mem_taken (by simp [Call.setting?]) hg
  obtain ⟨hfirst, hlater, -⟩ := iteration_calls .standard cs
  obtain ⟨hsecond, -, hquiet, hdelivered⟩ := iteration_calls .standard es
  have hnone : (((t.calls cs).2).call .next).1 = .token none := by decide +kernel
  have hopen : ¬t.Ended es := fun h => absurd (hsecond.2 h) (by decide +kernel)
  obtain ⟨-, hnext, hthen⟩ := (hquiet ds hds).2 hend hopen
  obtain ⟨hstart, hlength⟩ := hdelivered "if x" _ u.lexicon (by decide) hM
  refine ⟨hfirst.1 hnone, (hlater ds fun d hd => (hds d hd).1).2 hnone, hopen, hend, ?_, hthen, hM,
    hstart, ?_⟩
  · exact hnext.trans (by decide +kernel)
  · exact hlength.trans (by decide +kernel)

end Tokenizer

end Lexing
