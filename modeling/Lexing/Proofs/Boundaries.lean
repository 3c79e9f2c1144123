import Lexing.Proofs.Tiling
import Lexing.Scanner

/-!
Boundaries: every slice that a scanner takes begins and ends between characters. The cursor of a
scanner splits its source into the text before it and the text behind it, and whatever a rule
computes in bytes is the size of a piece at the start of the latter (`accept?_eq`). So a scanner
never stops, and it answers every history of calls as the tokenizer of the same history does.
-/

namespace Lexing

theorem ok_bind {α β : Type} (a : α) (f : α → Except BadSlice β) : Except.ok a >>= f = f a := rfl

/-! ## Pieces and matches -/

theorem slice_inBytes {p : Piece} (h : p.start ≤ p.stop) (text : List Char) :
    slice (String.ofList text) (p.inBytes text).start (p.inBytes text).stop =
      .ok (String.ofList (p.of text)) := by
  have hstop : text.take p.start ++ p.of text = text.take p.stop := take_append_drop_take h text
  have htext : text.take p.start ++ (p.of text ++ text.drop p.stop) = text := by
    rw [← List.append_assoc, hstop, List.take_append_drop]
  have hslice := slice_append (text.take p.start) (p.of text) (text.drop p.stop)
  rwa [htext, ← byteSize_append, hstop] at hslice

namespace Match

variable {m : Match} {text : List Char}

theorem content_inBytes (m : Match) (text : List Char) :
    (m.inBytes text).content = m.content.inBytes text := by
  cases hg : m.group? <;> simp [content, inBytes, hg]

/-- A match on boundaries lies between characters. -/
theorem OnBoundaries.exists_inBytes (h : m.OnBoundaries (String.ofList text)) :
    ∃ n : Match, n.Within text ∧ n.inBytes text = m := by
  obtain ⟨⟨start, stop⟩, group?⟩ := m
  obtain ⟨i, hi, rfl⟩ := exists_byteOffset_eq h.start
  obtain ⟨j, hj, rfl⟩ := exists_byteOffset_eq h.stop
  have hij := le_of_byteOffset_le hi h.start_le
  cases group? with
  | none => exact ⟨⟨⟨i, j⟩, none⟩, ⟨hij, hj, by simp⟩, rfl⟩
  | some g =>
    obtain ⟨gstart, gstop⟩ := g
    obtain ⟨hstart, hstop⟩ := h.group _ rfl
    obtain ⟨k, hk, rfl⟩ := exists_byteOffset_eq hstart
    obtain ⟨l, hl, rfl⟩ := exists_byteOffset_eq hstop
    obtain ⟨hik, hkl, hlj⟩ := h.group_le _ rfl
    refine ⟨⟨⟨i, j⟩, some ⟨k, l⟩⟩, ⟨hij, hj, ?_⟩, rfl⟩
    rintro _ ⟨⟩
    exact ⟨le_of_byteOffset_le hi hik, le_of_byteOffset_le hk hkl, le_of_byteOffset_le hl hlj⟩

end Match

namespace Pattern

variable {p : Pattern} {text : List Char} {m : Match}

/-- Nothing is asked of patterns beyond that: every search with matches on boundaries is that of a
pattern. -/
theorem exists_search_eq {f : String → Option Match}
    (h : ∀ text m, f text = some m → m.OnBoundaries text) : ∃ p : Pattern, p.search = f := by
  have hchars (text : List Char) : ∃ n? : Option Match, (∀ n, n? = some n → n.Within text) ∧
      n?.map (·.inBytes text) = f (String.ofList text) := by
    cases hf : f (String.ofList text) with
    | none => exact ⟨none, by simp, rfl⟩
    | some m =>
      obtain ⟨n, hn, hbytes⟩ := (h _ m hf).exists_inBytes
      exact ⟨some n, by simpa using hn, congrArg some hbytes⟩
  choose g hwithin hg using hchars
  obtain ⟨p, hp⟩ := exists_find?_eq hwithin
  refine ⟨p, funext fun text => ?_⟩
  rw [search, hp, hg, String.ofList_toList]

/-- A match is leading in bytes when it is leading in characters. -/
theorem filter_search :
    ((p.search (String.ofList text)).filter fun m =>
        m.whole.start == 0 && m.whole.stop != m.whole.start) =
      (p.leading? text).map (·.inBytes text) := by
  rw [search, String.toList_ofList, leading?_eq_filter, Option.filter_map]
  cases hm : p.find? text with
  | none => rfl
  | some m =>
    have hw := within_of_find? hm
    have hstart : byteOffset text m.whole.start = 0 ↔ m.whole.start = 0 :=
      byteOffset_eq_zero_iff (Nat.le_trans hw.start_le hw.stop_le)
    have hstop : byteOffset text m.whole.stop = 0 ↔ m.whole.stop = 0 :=
      byteOffset_eq_zero_iff hw.stop_le
    rw [Option.filter_some, Option.filter_some]
    congr 2
    by_cases h : m.whole.start = 0
    · simp [Match.inBytes, Piece.inBytes, h, hstop]
    · simp [Match.inBytes, Piece.inBytes, h, hstart]

end Pattern

/-- The search for the closing quote counts bytes where that of tokenizers counts characters. -/
theorem closingOffset?.go_eq (escaped : Bool) (offset : Nat) (body : List Char) :
    closingOffset?.go escaped offset body =
      (closingQuote? escaped body).map (offset + byteOffset body ·) := by
  induction body generalizing escaped offset with
  | nil => rfl
  | cons c rest ih =>
    cases escaped with
    | true =>
      rw [go, if_pos rfl, ih, closingQuote?_true_cons, Option.map_map]
      simp [Function.comp_def, Nat.add_comm 1, Nat.add_assoc]
    | false =>
      rw [go, if_neg (by decide), closingQuote?_false_cons]
      split
      · simp
      · rw [ih, Option.map_map]
        simp [Function.comp_def, Nat.add_comm 1, Nat.add_assoc]

theorem closingOffset?_eq (body : List Char) :
    closingOffset? (String.ofList body) = (closingQuote? false body).map (byteOffset body ·) := by
  rw [closingOffset?, closingOffset?.go_eq, String.toList_ofList]
  simp

/-- Both quotes of a literal take one byte. -/
theorem byteOffset_literal {body : List Char} {i : Nat} (h : closingQuote? false body = some i) :
    byteOffset ('"' :: body) (i + 2) = byteOffset body i + 1 + 1 := by
  have hquote : '"'.utf8Size = 1 := rfl
  have hsize := congrArg byteSize (eq_of_closingQuote? h)
  have htake := byteSize_append (body.take (i + 1)) (body.drop (i + 1))
  rw [byteSize_append, byteSize_cons, hquote] at hsize
  rw [List.take_append_drop] at htake
  rw [byteOffset_cons_succ, hquote, byteOffset, byteOffset]
  omega

theorem slice_literal (w rest : List Char) :
    slice (String.ofList ('"' :: (w ++ rest))) 1 (byteSize w + 1) = .ok (String.ofList w) := by
  rw [Nat.add_comm]
  exact slice_append ['"'] w rest

namespace Scanner

variable {s : Scanner} {text : List Char}

/-! ## The cursor -/

/-- The scanner stands before the text: that is what its source holds from the cursor on. -/
def Before (s : Scanner) (text : List Char) : Prop :=
  ∃ seen : List Char, s.source = String.ofList (seen ++ text) ∧ s.offset = byteSize seen

theorem Before.isBoundary (h : s.Before text) : IsBoundary s.source s.offset := by
  obtain ⟨seen, hsource, hoffset⟩ := h
  rw [hsource]
  exact isBoundary_iff.2 ⟨seen, text, rfl, hoffset⟩

theorem Before.utf8ByteSize_eq (h : s.Before text) :
    s.source.utf8ByteSize = s.offset + byteSize text := by
  obtain ⟨seen, hsource, hoffset⟩ := h
  rw [hsource, hoffset, ← byteSize_append]
  rfl

theorem Before.isExhausted_eq (h : s.Before text) : s.isExhausted = text.isEmpty := by
  rw [isExhausted, h.utf8ByteSize_eq]
  cases text with
  | nil => simp
  | cons c text =>
    have := byteSize_pos (List.cons_ne_nil c text)
    simp only [List.isEmpty_cons, decide_eq_false_iff_not]
    omega

theorem Before.slice_eq {w rest : List Char} (h : s.Before (w ++ rest)) :
    slice s.source s.offset (s.offset + byteSize w) = .ok (String.ofList w) := by
  obtain ⟨seen, hsource, hoffset⟩ := h
  rw [hsource, hoffset]
  exact slice_append seen w rest

theorem Before.remainder_eq (h : s.Before text) : s.remainder = .ok (String.ofList text) := by
  have hall : s.Before (text ++ []) := by rwa [List.append_nil]
  rw [remainder, h.utf8ByteSize_eq, hall.slice_eq]

/-- What a scanner answers that has found a lexeme at its cursor. -/
def after (s : Scanner) (l : Lexeme) : Token × Scanner :=
  (⟨l.kind, String.ofList l.value, s.position⟩,
    { s with offset := s.offset + byteSize l.span, position := s.position.after l })

theorem after_endOfInput (s : Scanner) :
    s.after .endOfInput = (s.newToken .endOfInput "", s) := by
  simp [after, Lexeme.endOfInput, Position.after, newToken]

theorem Before.after {l : Lexeme} (h : s.Before text) (hl : l.span ++ l.rest = text) :
    (s.after l).2.Before l.rest := by
  obtain ⟨seen, hsource, hoffset⟩ := h
  refine ⟨seen ++ l.span, ?_, ?_⟩
  · rw [List.append_assoc, hl]
    exact hsource
  · rw [byteSize_append, ← hoffset]
    rfl

/-- Moving by the size of what stands at the cursor moves behind it. -/
theorem Before.advance_eq {w rest : List Char} (h : s.Before (w ++ rest)) :
    s.advance (byteSize w) =
      .ok { s with offset := s.offset + byteSize w, position := s.position.right w.length } := by
  rw [advance, h.slice_eq, ok_bind, String.length_ofList]
  rfl

/-- Taking as many bytes as the first `n` characters have takes these characters. -/
theorem Before.takeToken_eq (h : s.Before text) (kind : TokenKind) (hk : kind ≠ .newline)
    (value : List Char → List Char) (n : Nat) :
    s.takeToken kind (String.ofList (value (text.take n))) (byteOffset text n) =
      .ok (s.after (.ofLength kind value text n)) := by
  have hsplit : s.Before (text.take n ++ text.drop n) := by rwa [List.take_append_drop]
  have hposition : s.position.after (.ofLength kind value text n) =
      s.position.right (text.take n).length := if_neg hk
  rw [takeToken, byteOffset, hsplit.advance_eq, ok_bind, ← hposition]
  rfl

/-! ## Rules

Every rule finds what it finds in the text behind the cursor, and takes the bytes of just that. -/

section

variable (kind : TokenKind) (hk : kind ≠ .newline) (value : List Char → List Char)

include hk

theorem Before.matching?_eq (h : s.Before text) (p : Pattern) {piece : Match → Piece}
    (hle : ∀ m : Match, m.Within text → (piece m).start ≤ (piece m).stop)
    (hbytes : ∀ m : Match, piece (m.inBytes text) = (piece m).inBytes text) :
    s.matching? p kind piece value =
      .ok (((p.leading? text).map fun m =>
        .ofLength kind (fun _ => value ((piece m).of text)) text m.whole.stop).map s.after) := by
  rw [matching?, h.remainder_eq, ok_bind, Pattern.filter_search]
  cases hm : p.leading? text with
  | none => rfl
  | some m =>
    have hw := p.within text 0 m (Pattern.matchAt?_of_leading? hm)
    have htake := h.takeToken_eq kind hk (fun _ => value ((piece m).of text)) m.whole.stop
    simp only [Option.map_some, hbytes, slice_inBytes (hle m hw), ok_bind, String.toList_ofList]
    change s.takeToken kind _ (byteOffset text m.whole.stop) >>= _ = _
    rw [htake]
    rfl

/-- A match whose value is read off all of it takes the characters that it starts the text with. -/
theorem Before.matching?_whole_eq (h : s.Before text) (p : Pattern) :
    s.matching? p kind Match.whole value =
      .ok ((Lexeme.matching? p kind value text).map s.after) := by
  rw [h.matching?_eq kind hk value p (fun m hw => hw.start_le) fun m => rfl, Lexeme.matching?]
  cases hm : p.leading? text with
  | none => rfl
  | some m =>
    have hstart := (Pattern.leading?_eq_some_iff.1 hm).2.1
    simp [Lexeme.ofLength, Piece.of, hstart]

theorem Before.run?_eq (h : s.Before text) (p : Char → Bool) (accepts : List Char → Bool) :
    s.run? p kind value accepts =
      .ok ((if runLength p text ≠ 0 ∧ accepts (value (text.take (runLength p text))) then
        some (.ofLength kind value text (runLength p text)) else none).map s.after) := by
  have hzero := byteOffset_eq_zero_iff (runLength_le p text)
  have hslice : slice (String.ofList text) 0 (byteOffset text (runLength p text)) =
      .ok (String.ofList (text.take (runLength p text))) :=
    (byteOffset_zero text) ▸ slice_inBytes (p := ⟨0, runLength p text⟩) (Nat.zero_le _) text
  rw [run?, h.remainder_eq, ok_bind, String.toList_ofList]
  by_cases hn : runLength p text = 0
  · rw [if_pos (hzero.2 hn), if_neg fun hc => hc.1 hn]
    rfl
  · rw [if_neg (mt hzero.1 hn), hslice, ok_bind, String.toList_ofList]
    by_cases ha : accepts (value (text.take (runLength p text))) = true
    · rw [if_pos ha, if_pos ⟨hn, ha⟩, h.takeToken_eq kind hk]
      rfl
    · rw [if_neg ha, if_neg fun hc => ha hc.2]
      rfl

end

theorem Before.endOfInput?_eq (h : s.Before text) :
    s.endOfInput? = .ok ((Lexeme.endOfInput? text).map s.after) := by
  rw [endOfInput?, h.isExhausted_eq]
  cases text with
  | nil =>
    rw [Lexeme.endOfInput?, Option.map_some, after_endOfInput]
    rfl
  | cons c text => rfl

theorem Before.newline?_eq (h : s.Before text) :
    s.newline? = .ok ((Lexeme.newline? text).map s.after) := by
  rw [newline?, h.remainder_eq, ok_bind, String.toList_ofList]
  cases text with
  | nil => rfl
  | cons c rest =>
    by_cases hc : c = '\n'
    · subst hc
      -- Behind the line break the cursor stands in column 1.
      let below : Scanner := { s with position := ⟨s.position.line + 1, 0⟩ }
      have hadvance := Before.advance_eq (s := below) (w := ['\n']) h
      rw [if_pos List.head?_cons, Lexeme.newline?, if_pos rfl, Option.map_some]
      change below.advance (byteSize ['\n']) >>= _ = _
      rw [hadvance]
      rfl
    · have hhead : (c :: rest).head? ≠ some '\n' := by simpa using hc
      rw [if_neg hhead, Lexeme.newline?, if_neg hc]
      rfl

theorem Before.symbol?_eq (h : s.Before text) :
    s.symbol? = .ok ((s.lexicon.symbol? text).map s.after) := by
  rw [symbol?, h.remainder_eq, ok_bind, String.toList_ofList, Lexicon.symbol?]
  cases hfind : s.lexicon.symbols.find? (·.isPrefixOf text) with
  | none => rfl
  | some symbol =>
    have hprefix : symbol <+: text := by simpa using List.find?_some hfind
    have htake := h.takeToken_eq .symbol (by decide) id symbol.length
    rw [byteOffset, id, ← List.prefix_iff_eq_take.1 hprefix, byteSize] at htake
    simp only [htake, ok_bind, Option.map_some]
    rfl

theorem Before.string?_eq (h : s.Before text) :
    s.string? = .ok ((Lexeme.string? text).map s.after) := by
  rw [string?, h.remainder_eq, ok_bind, String.toList_ofList]
  cases text with
  | nil => rfl
  | cons c body =>
    by_cases hc : c = '"'
    · subst hc
      have hsize : (String.ofList ('"' :: body)).utf8ByteSize = byteSize body + 1 :=
        (byteSize_cons '"' body).trans (Nat.add_comm 1 _)
      have hbody : slice (String.ofList ('"' :: body)) 1 (byteSize body + 1) =
          .ok (String.ofList body) := by
        simpa using slice_literal body []
      rw [Lexeme.string?, if_pos rfl, hsize, hbody, ok_bind, closingOffset?_eq]
      cases hq : closingQuote? false body with
      | none => exact ite_self (Except.ok none)
      | some i =>
        have hne : body ≠ [] := by
          rintro rfl
          contradiction
        have hlong : 2 ≤ byteSize body + 1 := Nat.succ_le_succ (byteSize_pos hne)
        have hopen : ¬(byteSize body + 1 < 2 ∨ ('"' :: body).head? ≠ some '"') :=
          not_or.2 ⟨Nat.not_lt.2 hlong, fun hhead => hhead rfl⟩
        have hcontent : slice (String.ofList ('"' :: body)) 1 (byteOffset body i + 1) =
            .ok (String.ofList (body.take i)) := by
          have := slice_literal (body.take i) (body.drop i)
          rwa [List.take_append_drop] at this
        have htake := h.takeToken_eq .string (by decide) (fun _ => body.take i) (i + 2)
        rw [byteOffset_literal hq] at htake
        rw [if_neg hopen]
        simp only [Option.map_some, hcontent, htake, ok_bind]
        rfl
    · have hhead : (c :: body).head? ≠ some '"' := by simpa using hc
      rw [if_pos (.inr hhead), Lexeme.string?, if_neg hc]
      rfl

/-- What a rule accepts of the bytes is what it accepts of the characters. -/
theorem Before.accept?_eq (h : s.Before text) (r : Rule) :
    s.accept? r = .ok ((s.lexicon.lexeme? text r).map s.after) := by
  cases r with
  | comment =>
    exact h.matching?_eq .comment (by decide) id s.lexicon.comment
      (fun m hw => hw.content_le) fun m => m.content_inBytes text
  | endOfInput => exact h.endOfInput?_eq
  | whitespace =>
    rw [accept?, h.run?_eq .whitespace (by decide), Lexicon.lexeme?, Lexeme.whitespace?]
    by_cases hn : runLength isLayout text = 0 <;> simp [hn]
  | keyword =>
    rw [accept?, h.run?_eq .keyword (by decide), Lexicon.lexeme?, Lexicon.keyword?]
    simp
  | newline => exact h.newline?_eq
  | symbol => exact h.symbol?_eq
  | identifier => exact h.matching?_whole_eq .identifier (by decide) lowered s.lexicon.identifier
  | string => exact h.string?_eq
  | number => exact h.matching?_whole_eq .number (by decide) id s.lexicon.number

theorem Before.unrecognised_eq (h : s.Before text) :
    s.unrecognised = .ok (s.after (.unrecognised text)) := by
  rw [unrecognised, h.remainder_eq, ok_bind, String.toList_ofList]
  cases text with
  | nil =>
    rw [Lexeme.unrecognised, after_endOfInput]
    rfl
  | cons c rest =>
    have htake := h.takeToken_eq .unknown (by decide) id 1
    rw [byteOffset_cons_succ, byteOffset_zero] at htake
    simpa [Lexeme.ofLength, Lexeme.unrecognised] using htake

/-! ## Runs -/

theorem Before.nextToken_eq (h : s.Before text) :
    s.nextToken = .ok (s.after (s.lexicon.lexeme text)) := by
  have haccept : s.accept? = fun r => pure ((s.lexicon.lexeme? text r).map s.after) :=
    funext h.accept?_eq
  have hfirst : s.lexicon.rules.findSomeM? s.accept? =
      .ok ((s.lexicon.recognise? text).map s.after) := by
    rw [haccept, List.findSomeM?_pure, Lexicon.recognise?, List.map_findSome?]
    rfl
  rw [nextToken, hfirst, ok_bind, Lexicon.lexeme]
  cases s.lexicon.recognise? text with
  | none => exact h.unrecognised_eq
  | some l => rfl

/-- The scanner stands where the tokenizer stands, and is in the same state otherwise. -/
structure Mirrors (s : Scanner) (t : Tokenizer) : Prop where
  lexicon : s.lexicon = t.lexicon
  before : s.Before t.rest
  position : s.position = t.position
  finished : s.finished = t.finished

theorem mirrors_load {t : Tokenizer} (h : s.lexicon = t.lexicon) (source : String) :
    (s.load source).Mirrors (t.load source) where
  lexicon := h
  before := ⟨[], by simp [load, Tokenizer.load], by simp [load]⟩
  position := rfl
  finished := rfl

variable {t : Tokenizer}

theorem Mirrors.nextToken (h : s.Mirrors t) :
    ∃ u : Scanner, s.nextToken = .ok (t.nextToken.1, u) ∧ u.Mirrors t.nextToken.2 := by
  let l := t.lexicon.lexeme t.rest
  refine ⟨(s.after l).2, ?_, ?_⟩
  · rw [h.before.nextToken_eq, h.lexicon, Scanner.after, h.position]
    rfl
  · exact
      { lexicon := h.lexicon
        before := h.before.after (t.lexicon.span_append_rest t.rest)
        position := congrArg (Position.after · l) h.position
        finished := h.finished }

theorem Mirrors.next? (h : s.Mirrors t) (hf : t.finished = false) :
    ∃ u : Scanner, s.next? = .ok (some (t.nextToken.1, u)) ∧
      u.Mirrors { t.nextToken.2 with finished := t.nextToken.1.isEnd } := by
  obtain ⟨v, hnext, hv⟩ := h.nextToken
  refine ⟨if t.nextToken.1.isEnd then { v with finished := true } else v, ?_, ?_⟩
  · simp only [Scanner.next?, h.finished, hf, hnext, ok_bind]
    rfl
  · cases hend : t.nextToken.1.isEnd with
    | true => exact ⟨hv.lexicon, hv.before, hv.position, rfl⟩
    | false => exact ⟨hv.lexicon, hv.before, hv.position, hv.finished.trans hf⟩

/-- A call finds all its slices, answers what the tokenizer answers and goes where that goes. -/
theorem Mirrors.call (h : s.Mirrors t) (c : Call) :
    ∃ u : Scanner, s.call c = .ok ((t.call c).1, u) ∧ u.Mirrors (t.call c).2 := by
  cases c with
  | load source => exact ⟨s.load source, rfl, mirrors_load h.lexicon source⟩
  | set setting =>
    exact ⟨s.set setting, rfl, congrArg (Lexicon.set · setting) h.lexicon, h.before, h.position,
      h.finished⟩
  | nextToken =>
    obtain ⟨u, hnext, hu⟩ := h.nextToken
    refine ⟨u, ?_, hu⟩
    rw [Scanner.call, hnext, ok_bind]
    rfl
  | next =>
    cases hf : t.finished with
    | true =>
      have hnone : t.call .next = (.token none, t) := by simp [Tokenizer.call, Tokenizer.next?, hf]
      refine ⟨s, ?_, hnone ▸ h⟩
      rw [hnone, Scanner.call, Scanner.next?, if_pos (h.finished.trans hf)]
      rfl
    | false =>
      obtain ⟨u, hnext, hu⟩ := h.next? hf
      have hsome : t.call .next = (.token (some t.nextToken.1),
          { t.nextToken.2 with finished := t.nextToken.1.isEnd }) := by
        simp [Tokenizer.call, Tokenizer.next?, hf]
      refine ⟨u, ?_, hsome ▸ hu⟩
      rw [hsome, Scanner.call, hnext]
      rfl

theorem Mirrors.calls (h : s.Mirrors t) (cs : List Call) :
    ∃ u : Scanner, s.calls cs = .ok ((t.calls cs).1, u) ∧ u.Mirrors (t.calls cs).2 := by
  induction cs generalizing s t with
  | nil => exact ⟨s, rfl, h⟩
  | cons c cs ih =>
    obtain ⟨v, hcall, hv⟩ := h.call c
    obtain ⟨u, hcalls, hu⟩ := ih hv
    refine ⟨u, ?_, hu⟩
    simp only [Scanner.calls, hcall, hcalls, ok_bind]
    rfl

theorem mirrors_new : Mirrors {} {} where
  lexicon := rfl
  before := ⟨[], by simp, by simp⟩
  position := rfl
  finished := rfl

end Scanner

/-! ## Reports -/

theorem utf8Size_of_isBlank {c : Char} (h : isBlank c = true) : c.utf8Size = 1 := by
  rcases (by simpa [isBlank] using h : c = ' ' ∨ c = '\t') with rfl | rfl <;> rfl

/-- Blanks take one byte each, so that their number is an offset. -/
theorem withoutBlanks_eq (line : List Char) :
    withoutBlanks (String.ofList line) =
      .ok (String.ofList (line.dropWhile isBlank), runLength isBlank line) := by
  have hsize : byteSize (line.takeWhile isBlank) = runLength isBlank line :=
    byteSize_eq_length fun c hc => utf8Size_of_isBlank (List.all_eq_true.1 List.all_takeWhile c hc)
  have hslice := slice_append (line.takeWhile isBlank) (line.dropWhile isBlank) []
  rw [List.append_nil, ← byteSize_append, List.takeWhile_append_dropWhile, hsize] at hslice
  rw [withoutBlanks, String.toList_ofList]
  change slice (String.ofList line) (runLength isBlank line) (byteSize line) >>= _ = _
  rw [hslice]
  rfl

example : withoutBlanks "\t ßé" = .ok ("ßé", 2) := by rfl

theorem Diagnostic.cutReport_eq (d : Diagnostic) (source file : String) :
    d.cutReport source file = .ok (d.report source file) := by
  rw [cutReport, withoutBlanks_eq, ok_bind, report]
  simp only [String.toList_ofList]
  rfl

/-- Slicing never fails, whatever is loaded and set. In every state that a scanner comes to, the
cursor stands on a boundary within the source, and each rule by itself finds the slices that it
takes, as does the reader of unknown characters; the replies so far are those of the tokenizer.
Every report finds its line without blanks. Of the patterns that may be set nothing is asked but
that a search has its matches on boundaries. -/
theorem Scanner.slices_on_boundaries (cs : List Call) :
    (∃ s : Scanner, ({} : Scanner).calls cs = .ok ((({} : Tokenizer).calls cs).1, s) ∧
      s.offset ≤ s.source.utf8ByteSize ∧ IsBoundary s.source s.offset ∧
      s.remainder = .ok (String.ofList (({} : Tokenizer).calls cs).2.rest) ∧
      (∀ r, ∃ found?, s.accept? r = .ok found?) ∧ ∃ found, s.unrecognised = .ok found) ∧
    (∀ (d : Diagnostic) (source file : String),
      d.cutReport source file = .ok (d.report source file)) ∧
    ∀ f : String → Option Match, (∀ text m, f text = some m → m.OnBoundaries text) →
      ∃ p : Pattern, p.search = f := by
  obtain ⟨s, hcalls, hs⟩ := mirrors_new.calls cs
  have hboundary := hs.before.isBoundary
  have hrules (r : Rule) : ∃ found?, s.accept? r = .ok found? := ⟨_, hs.before.accept?_eq r⟩
  have hunknown : ∃ found, s.unrecognised = .ok found := ⟨_, hs.before.unrecognised_eq⟩
  refine ⟨⟨s, hcalls, hboundary.le_utf8ByteSize, hboundary, ?_, hrules, hunknown⟩, ?_, ?_⟩
  · exact hs.before.remainder_eq
  · exact fun d source file => d.cutReport_eq source file
  · exact fun f hf => Pattern.exists_search_eq hf

end Lexing
