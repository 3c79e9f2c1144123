import Lexing.Proofs.Grammar
import Lexing.Proofs.Run

/-!
The order of the rules. By its first character a text is open to two rules of the standard lexicon at
most (`Rule.candidates`), so that the order of the rules matters only within three pairs: a comment may
start with the blanks before its mark or with a slash, as whitespace and a symbol do, and a keyword reads
like an identifier.

Rules in any other order find the same tokens in every source, as long as these pairs keep theirs
(`lexeme_withRules`). Each pair that does not shows in some source.
-/

namespace Lexing

/-! ## Lists of rules -/

/-- Of a list without repetitions only the members that accept matter, in their order. -/
theorem findSome?_of_sublist {α β : Type} {f : α → Option β} {few all : List α}
    (h : few.Sublist all) (hnodup : all.Nodup) (hnone : ∀ r ∈ all, r ∉ few → f r = none) :
    all.findSome? f = few.findSome? f := by
  induction h with
  | slnil => rfl
  | @cons few all r hsub ih =>
    obtain ⟨hr, hall⟩ := List.nodup_cons.1 hnodup
    have hf : f r = none := hnone r (by simp) fun hmem => hr (hsub.subset hmem)
    rw [List.findSome?_cons, hf]
    exact ih hall fun r' hr' => hnone r' (List.mem_cons_of_mem r hr')
  | @cons_cons few all r hsub ih =>
    obtain ⟨hr, hall⟩ := List.nodup_cons.1 hnodup
    have htail : all.findSome? f = few.findSome? f := by
      refine ih hall fun r' hr' hout => hnone r' (List.mem_cons_of_mem r hr') fun hmem => ?_
      rcases List.mem_cons.1 hmem with heq | hmem
      · exact hr (heq ▸ hr')
      · exact hout hmem
    rw [List.findSome?_cons, List.findSome?_cons, htail]

/-- Of two members of a list one stands before the other. -/
theorem pair_sublist_or {α : Type} {a b : α} {l : List α} (hne : a ≠ b) (ha : a ∈ l) (hb : b ∈ l) :
    [a, b].Sublist l ∨ [b, a].Sublist l := by
  obtain ⟨pre, post, rfl⟩ := List.append_of_mem ha
  rcases List.mem_append.1 hb with hpre | hpost
  · right
    exact (List.singleton_sublist.2 hpre).append (List.singleton_sublist.2 (by simp))
  · left
    have htail : b ∈ post := (List.mem_cons.1 hpost).resolve_left hne.symm
    exact (((List.singleton_sublist.2 htail).cons_cons a)).trans (List.sublist_append_right pre _)

namespace Rule

/-- The rules that may accept a text with this first character, in the order of priority. -/
def candidates : Option Char → List Rule
  | none => [endOfInput]
  | some c =>
    if isBlank c then [comment, whitespace]
    else if c = '\r' then [whitespace]
    else if c = '/' then [comment, symbol]
    else if c = '\n' then [newline]
    else if c.isAlpha then [keyword, identifier]
    else if c = ':' then [identifier]
    else if c.isDigit then [number]
    else if c = '"' then [string]
    else [symbol]

/-- Rules that may accept the same text stand in the order of priority. -/
structure KeepsOverlaps (rules : List Rule) : Prop where
  comment_whitespace : [comment, whitespace].Sublist rules
  comment_symbol : [comment, symbol].Sublist rules
  keyword_identifier : [keyword, identifier].Sublist rules

instance (rules : List Rule) : Decidable (KeepsOverlaps rules) :=
  decidable_of_iff ([comment, whitespace].Sublist rules ∧ [comment, symbol].Sublist rules ∧
    [keyword, identifier].Sublist rules)
    ⟨fun ⟨h₁, h₂, h₃⟩ => ⟨h₁, h₂, h₃⟩, fun ⟨h₁, h₂, h₃⟩ => ⟨h₁, h₂, h₃⟩⟩

variable {c : Char} {rules : List Rule}

theorem candidates_of_isAlpha (h : c.isAlpha = true) :
    candidates (some c) = [keyword, identifier] := by
  have hne : c ≠ ' ' ∧ c ≠ '\t' ∧ c ≠ '\r' ∧ c ≠ '/' ∧ c ≠ '\n' := by
    refine ⟨?_, ?_, ?_, ?_, ?_⟩ <;> (rintro rfl; contradiction)
  simp [candidates, isBlank, hne, h]

theorem candidates_of_isDigit (h : c.isDigit = true) : candidates (some c) = [number] := by
  have hne : c ≠ ' ' ∧ c ≠ '\t' ∧ c ≠ '\r' ∧ c ≠ '/' ∧ c ≠ '\n' ∧ c ≠ ':' := by
    refine ⟨?_, ?_, ?_, ?_, ?_, ?_⟩ <;> (rintro rfl; contradiction)
  simp [candidates, isBlank, hne, h, isAlpha_eq_false_of_isDigit h]

theorem mem_of_perm (h : rules.Perm priority) (r : Rule) : r ∈ rules := by
  rw [h.mem_iff]
  cases r <;> decide

theorem nodup_of_perm (h : rules.Perm priority) : rules.Nodup :=
  h.nodup_iff.2 (by decide)

/-- The candidates for a text are tried in their order. -/
theorem KeepsOverlaps.candidates_sublist (hkeeps : KeepsOverlaps rules) (hperm : rules.Perm priority)
    (first? : Option Char) : (candidates first?).Sublist rules := by
  have hone (r : Rule) : [r].Sublist rules := List.singleton_sublist.2 (mem_of_perm hperm r)
  cases first? with
  | none => exact hone _
  | some c =>
    rw [candidates]
    split_ifs
    · exact hkeeps.comment_whitespace
    · exact hone _
    · exact hkeeps.comment_symbol
    · exact hone _
    · exact hkeeps.keyword_identifier
    · exact hone _
    · exact hone _
    · exact hone _
    · exact hone _

theorem keepsOverlaps_priority : KeepsOverlaps priority := by decide

end Rule

namespace Lexicon

open Rule

variable {rules : List Rule} {c : Char} {rest text : List Char} {l : Lexeme} {r : Rule}

theorem mem_candidates_of_comment? (h : standard.comment? (c :: rest) = some l) :
    Rule.comment ∈ candidates (some c) := by
  rw [comment?_standard] at h
  split at h
  · rename_i hmark
    by_cases hc : isBlank c = true
    · simp [candidates, hc]
    · obtain ⟨rfl, -⟩ := (Reading.mark_prefix_iff (Bool.eq_false_iff.2 hc)).1 hmark
      decide
  · contradiction

theorem mem_candidates_of_symbol? (h : standard.symbol? (c :: rest) = some l) :
    Rule.symbol ∈ candidates (some c) := by
  have hheads : ∀ s ∈ standard.symbols,
      s.head?.all (fun c => (candidates (some c)).contains Rule.symbol) = true := by decide
  by_contra hc
  have hnone : standard.symbol? (c :: rest) = none := by
    refine symbol?_cons_eq_none (fun s hs hd => ?_) rest
    have hhead := hheads s hs
    rw [hd, Option.all_some, List.contains_iff_mem] at hhead
    exact hc hhead
  rw [hnone] at h
  contradiction

/-- A rule accepts no text with a first character for which it is no candidate. -/
theorem mem_candidates_of_lexeme? (h : standard.lexeme? text r = some l) :
    r ∈ candidates text.head? := by
  cases text with
  | nil =>
    have hkind : l.kind = .endOfInput := (starts_of_lexeme? h).kind_iff.2 rfl
    have hr : r = .endOfInput := Rule.eq_of_kind_eq ((kind_of_lexeme? h).symm.trans hkind)
    rw [hr]
    decide
  | cons c rest =>
    rw [List.head?_cons]
    cases r with
    | comment => exact mem_candidates_of_comment? h
    | endOfInput => contradiction
    | whitespace =>
      simp only [lexeme?, Lexeme.whitespace?_cons] at h
      split at h
      · rename_i hc
        rcases isLayout_iff.1 hc with rfl | rfl | rfl <;> decide
      · contradiction
    | keyword =>
      have hc : c.isAlpha = true := by
        by_contra hc
        rw [lexeme?, keyword?_standard_eq_none (Bool.eq_false_iff.2 hc)] at h
        contradiction
      simp [candidates_of_isAlpha hc]
    | newline =>
      simp only [lexeme?, Lexeme.newline?] at h
      split at h
      · rename_i hc
        subst hc
        decide
      · contradiction
    | symbol => exact mem_candidates_of_symbol? h
    | identifier =>
      by_cases hc : c.isAlpha = true
      · simp [candidates_of_isAlpha hc]
      · by_cases hcolon : c = ':' ∧ rest.head?.any Char.isAlpha = true
        · obtain ⟨rfl, -⟩ := hcolon
          decide
        · rw [lexeme?, identifier?_standard_eq_none (Bool.eq_false_iff.2 hc) hcolon] at h
          contradiction
    | string =>
      simp only [lexeme?, Lexeme.string?] at h
      split at h
      · rename_i hc
        subst hc
        decide
      · contradiction
    | number =>
      have hc : c.isDigit = true := by
        by_contra hc
        rw [lexeme?, number?_standard_eq_none (Bool.eq_false_iff.2 hc)] at h
        contradiction
      simp [candidates_of_isDigit hc]

/-! ## The lexicon with its rules in another order -/

/-- The lexicon with other rules, or with the same ones in another order. -/
def withRules (L : Lexicon) (rules : List Rule) : Lexicon :=
  { L with rules }

theorem lexeme?_withRules (L : Lexicon) (rules : List Rule) : (L.withRules rules).lexeme? = L.lexeme? := by
  funext text r
  cases r <;> rfl

/-- Only the candidates have to be tried, in the order in which they stand among the rules. -/
theorem recognise?_withRules (hperm : rules.Perm priority) {few : List Rule}
    (hsub : few.Sublist rules) (hopen : ∀ r ∈ candidates text.head?, r ∈ few) :
    (standard.withRules rules).recognise? text = few.findSome? (standard.lexeme? text) := by
  rw [recognise?, lexeme?_withRules]
  refine findSome?_of_sublist hsub (nodup_of_perm hperm) fun r _ hr => ?_
  cases h : standard.lexeme? text r with
  | none => rfl
  | some l => exact absurd (hopen r (mem_candidates_of_lexeme? h)) hr

/-- Rules that keep the order of their overlaps find the same as in the order of priority. -/
theorem lexeme_withRules (hperm : rules.Perm priority) (hkeeps : KeepsOverlaps rules)
    (text : List Char) : (standard.withRules rules).lexeme text = standard.lexeme text := by
  have hrules := recognise?_withRules hperm (hkeeps.candidates_sublist hperm text.head?)
    fun r hr => hr
  have hpriority := recognise?_withRules (List.Perm.refl priority)
    (keepsOverlaps_priority.candidates_sublist (List.Perm.refl priority) text.head?) fun r hr => hr
  rw [lexeme, hrules, ← hpriority]
  rfl

/-- Where the rules have two candidates the other way round, another token is found in a text that both of
them accept. -/
theorem tokenize_withRules_ne (hperm : rules.Perm priority) {a b : Rule} (hne : a ≠ b)
    (hnot : ¬[a, b].Sublist rules) {source : String} (hopen : candidates source.toList.head? = [a, b])
    (ha : (standard.lexeme source.toList).kind = a.kind)
    (hb : (standard.lexeme? source.toList b).isSome = true) :
    (standard.withRules rules).tokenize source ≠ standard.tokenize source := by
  have hsub := (pair_sublist_or hne (mem_of_perm hperm a) (mem_of_perm hperm b)).resolve_left hnot
  obtain ⟨l, hl⟩ := Option.isSome_iff_exists.1 hb
  have hlexeme : (standard.withRules rules).lexeme source.toList = l := by
    rw [lexeme, recognise?_withRules hperm hsub (by simp [hopen, or_comm]), List.findSome?_cons, hl]
    rfl
  intro heq
  have hhead := congrArg List.head? heq
  rw [head?_tokenize, head?_tokenize, hlexeme] at hhead
  have hkind : l.kind = (standard.lexeme source.toList).kind :=
    congrArg Token.kind (Option.some.inj hhead)
  rw [kind_of_lexeme? hl, ha] at hkind
  exact hne (Rule.eq_of_kind_eq hkind).symm

end Lexicon

/-- The rules may be tried in any order that keeps comments before whitespace and before symbols, and
keywords before identifiers: every source has the same tokens. In any order that does not, some source
has others. -/
theorem tokenize_withRules (rules : List Rule) (h : rules.Perm Rule.priority) :
    (Rule.KeepsOverlaps rules →
      ∀ source, (Lexicon.standard.withRules rules).tokenize source = tokenize source) ∧
      (¬Rule.KeepsOverlaps rules →
        ∃ source, (Lexicon.standard.withRules rules).tokenize source ≠ tokenize source) := by
  constructor
  · intro hkeeps
    exact Lexicon.tokenize_congr (Lexicon.lexeme_withRules h hkeeps)
  · intro hnot
    by_cases hwhitespace : [Rule.comment, .whitespace].Sublist rules
    · by_cases hsymbol : [Rule.comment, .symbol].Sublist rules
      · have hidentifier : ¬[Rule.keyword, .identifier].Sublist rules := fun hidentifier =>
          hnot ⟨hwhitespace, hsymbol, hidentifier⟩
        exact ⟨"if", Lexicon.tokenize_withRules_ne h (by decide) hidentifier (by decide) (by decide)
          (by decide)⟩
      · exact ⟨"//", Lexicon.tokenize_withRules_ne h (by decide) hsymbol (by decide) (by decide)
          (by decide)⟩
    · exact ⟨" //", Lexicon.tokenize_withRules_ne h (by decide) hwhitespace (by decide) (by decide)
        (by decide)⟩

/-- One order in which no rule keeps its place, and one that has symbols before comments. -/
theorem tokenize_withRules_of_orders :
    let keeping : List Rule := [.string, .number, .comment, .symbol, .keyword, .identifier, .newline,
      .endOfInput, .whitespace]
    let breaking : List Rule := [.symbol, .comment, .endOfInput, .whitespace, .keyword, .newline,
      .identifier, .string, .number]
    keeping.Perm Rule.priority ∧ Rule.KeepsOverlaps keeping ∧ breaking.Perm Rule.priority ∧
      ¬Rule.KeepsOverlaps breaking ∧
      (∀ source, (Lexicon.standard.withRules keeping).tokenize source = tokenize source) ∧
      ∃ source, (Lexicon.standard.withRules breaking).tokenize source ≠ tokenize source :=
  ⟨by decide, by decide, by decide, by decide, (tokenize_withRules _ (by decide)).1 (by decide),
    (tokenize_withRules _ (by decide)).2 (by decide)⟩

end Lexing
