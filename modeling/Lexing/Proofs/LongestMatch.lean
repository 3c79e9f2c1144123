import Lexing.Proofs.Run
import Lexing.Proofs.Rules

/-!
Longest matches in a symbol table. Symbols are tried in the order of the table, so that the first entry
that starts the text is taken, and not the longest one. The two are the same for every text if and
only if no entry stands behind one of its proper prefixes (`LongestFirst`): of two entries that start
the same text the shorter one is a prefix of the longer one.

Of such a table nothing but the set of its entries matters (`find?_eq_some_iff_isLongest`). In any
other table some entry is shadowed by a prefix of it, and no token can be that entry
(`not_shadowed_of_find?_eq_some`).
-/

namespace Lexing

/-- The longest entry of the table that the text starts with. -/
structure IsLongest (table : List (List Char)) (text s : List Char) : Prop where
  mem : s ∈ table
  starts : s <+: text
  length_le : ∀ s' ∈ table, s' <+: text → s'.length ≤ s.length

/-- Before the entry stands for the first time in the table, one of its proper prefixes does. -/
def Shadowed (table : List (List Char)) (s : List Char) : Prop :=
  ∃ p ∈ table.takeWhile (· ≠ s), p <+: s ∧ p ≠ s

/-- No entry of the table is shadowed. -/
def LongestFirst (table : List (List Char)) : Prop :=
  ∀ s ∈ table, ¬Shadowed table s

instance (table : List (List Char)) (s : List Char) : Decidable (Shadowed table s) :=
  inferInstanceAs (Decidable (∃ p ∈ table.takeWhile (· ≠ s), p <+: s ∧ p ≠ s))

instance : DecidablePred LongestFirst := fun table =>
  inferInstanceAs (Decidable (∀ s ∈ table, ¬Shadowed table s))

section Table

variable {table table' pre post : List (List Char)} {text s s' p : List Char}

theorem IsLongest.eq (h : IsLongest table text s) (h' : IsLongest table text s') : s = s' := by
  have hle := h.length_le s' h'.mem h'.starts
  have hge := h'.length_le s h.mem h.starts
  have hlen : s.length = s'.length := by omega
  exact (List.prefix_of_prefix_length_le h.starts h'.starts (Nat.le_of_eq hlen)).eq_of_length hlen

theorem IsLongest.congr (hmem : ∀ s, s ∈ table ↔ s ∈ table') :
    IsLongest table text s ↔ IsLongest table' text s := by
  constructor
  · intro h
    exact ⟨(hmem s).1 h.mem, h.starts, fun s' hs' => h.length_le s' ((hmem s').2 hs')⟩
  · intro h
    exact ⟨(hmem s).2 h.mem, h.starts, fun s' hs' => h.length_le s' ((hmem s').1 hs')⟩

/-! ## Before the first occurrence -/

theorem mem_of_mem_takeWhile (h : p ∈ (pre ++ s :: post).takeWhile (· ≠ s)) : p ∈ pre := by
  rw [List.takeWhile_append] at h
  split at h
  · simpa using h
  · exact (List.takeWhile_prefix _).subset h

theorem mem_takeWhile (hpre : s' ∉ pre) (hne : s ≠ s') :
    s ∈ (pre ++ s :: post).takeWhile (· ≠ s') := by
  have hall : ∀ p ∈ pre, decide (p ≠ s') = true := by
    intro p hp
    exact decide_eq_true fun heq => hpre (heq ▸ hp)
  rw [List.takeWhile_append_of_pos hall, List.takeWhile_cons_of_pos (by simpa using hne)]
  simp

/-! ## The first entry that starts the text -/

theorem find?_isPrefixOf_iff :
    table.find? (·.isPrefixOf text) = some s ↔
      ∃ pre post, table = pre ++ s :: post ∧ s <+: text ∧ ∀ p ∈ pre, ¬p <+: text := by
  rw [List.find?_eq_some_iff_append]
  constructor
  · rintro ⟨hs, pre, post, htable, hpre⟩
    refine ⟨pre, post, htable, List.isPrefixOf_iff_prefix.1 hs, ?_⟩
    intro p hp hstarts
    have hfalse := hpre p hp
    rw [List.isPrefixOf_iff_prefix.2 hstarts] at hfalse
    contradiction
  · rintro ⟨pre, post, htable, hs, hpre⟩
    refine ⟨List.isPrefixOf_iff_prefix.2 hs, pre, post, htable, ?_⟩
    intro p hp
    rw [Bool.not_eq_true', Bool.eq_false_iff, ne_eq, List.isPrefixOf_iff_prefix]
    exact hpre p hp

/-- Something is found in a text that starts with an entry. -/
theorem exists_find?_isPrefixOf (hs : s ∈ table) (hstarts : s <+: text) :
    ∃ s', table.find? (·.isPrefixOf text) = some s' := by
  have hsome : (table.find? (·.isPrefixOf text)).isSome = true :=
    List.find?_isSome.2 ⟨s, hs, List.isPrefixOf_iff_prefix.2 hstarts⟩
  exact Option.isSome_iff_exists.1 hsome

/-- A shadowed entry is never found: its prefix is found before. -/
theorem not_shadowed_of_find?_eq_some (h : table.find? (·.isPrefixOf text) = some s) :
    ¬Shadowed table s := by
  obtain ⟨pre, post, rfl, hs, hpre⟩ := find?_isPrefixOf_iff.1 h
  rintro ⟨p, hp, hps, -⟩
  exact hpre p (mem_of_mem_takeWhile hp) (hps.trans hs)

theorem isLongest_of_find?_eq_some (hfirst : LongestFirst table)
    (h : table.find? (·.isPrefixOf text) = some s) : IsLongest table text s := by
  obtain ⟨pre, post, rfl, hs, hpre⟩ := find?_isPrefixOf_iff.1 h
  refine ⟨by simp, hs, ?_⟩
  intro s' hmem hs'
  by_contra hlt
  have hprefix : s <+: s' := List.prefix_of_prefix_length_le hs hs' (by omega)
  have hne : s ≠ s' := by
    intro heq
    rw [heq] at hlt
    exact hlt (Nat.le_refl _)
  -- The longer entry comes later, since no entry before `s` starts the text.
  have hlater : s' ∉ pre := fun hp => hpre s' hp hs'
  exact hfirst s' hmem ⟨s, mem_takeWhile hlater hne, hprefix, hne⟩

/-- In a table without shadowed entries the longest entry is found. -/
theorem find?_eq_some_iff_isLongest (hfirst : LongestFirst table) :
    table.find? (·.isPrefixOf text) = some s ↔ IsLongest table text s := by
  constructor
  · exact isLongest_of_find?_eq_some hfirst
  · intro h
    obtain ⟨s', hfind⟩ := exists_find?_isPrefixOf h.mem h.starts
    rwa [h.eq (isLongest_of_find?_eq_some hfirst hfind)]

/-- A table finds the longest entry in every text if and only if none is shadowed: in the text of a
shadowed entry, a prefix of the entry is found. -/
theorem forall_find?_isLongest_iff :
    (∀ text, (∃ s ∈ table, s <+: text) →
      ∃ s, IsLongest table text s ∧ table.find? (·.isPrefixOf text) = some s) ↔
      LongestFirst table := by
  constructor
  · intro h s hs
    obtain ⟨s', hlongest, hfind⟩ := h s ⟨s, hs, List.prefix_rfl⟩
    have hle := hlongest.length_le s hs List.prefix_rfl
    have heq : s' = s := hlongest.starts.eq_of_length_le hle
    exact not_shadowed_of_find?_eq_some (heq ▸ hfind)
  · rintro hfirst text ⟨s, hs, hstarts⟩
    obtain ⟨s', hfind⟩ := exists_find?_isPrefixOf hs hstarts
    exact ⟨s', isLongest_of_find?_eq_some hfirst hfind, hfind⟩

end Table

/-! ## The symbol rule -/

namespace Lexicon

variable {L L' : Lexicon} {text s : List Char}

/-- The symbol that a text starts with, as a lexeme. -/
theorem symbol?_eq_some_iff {l : Lexeme} :
    L.symbol? text = some l ↔
      ∃ s, L.symbols.find? (·.isPrefixOf text) = some s ∧
        l = ⟨.symbol, s, s, text.drop s.length⟩ := by
  have hlexeme {s : List Char} (hfind : L.symbols.find? (·.isPrefixOf text) = some s) :
      Lexeme.ofLength .symbol id text s.length = ⟨.symbol, s, s, text.drop s.length⟩ := by
    obtain ⟨_, _, -, hs, -⟩ := find?_isPrefixOf_iff.1 hfind
    rw [Lexeme.ofLength, ← List.prefix_iff_eq_take.1 hs]
    rfl
  rw [symbol?, Option.map_eq_some_iff]
  constructor
  · rintro ⟨s, hfind, rfl⟩
    exact ⟨s, hfind, hlexeme hfind⟩
  · rintro ⟨s, hfind, rfl⟩
    exact ⟨s, hfind, hlexeme hfind⟩

/-- The symbol rule takes the longest symbol of every text that starts with one, if and only if no
symbol is shadowed. -/
theorem forall_symbol?_isLongest_iff :
    (∀ text, (∃ s ∈ L.symbols, s <+: text) →
      ∃ s, IsLongest L.symbols text s ∧
        L.symbol? text = some ⟨.symbol, s, s, text.drop s.length⟩) ↔ LongestFirst L.symbols := by
  have hfind (text s : List Char) : L.symbol? text = some ⟨.symbol, s, s, text.drop s.length⟩ ↔
      L.symbols.find? (·.isPrefixOf text) = some s := by
    rw [symbol?_eq_some_iff]
    constructor
    · rintro ⟨s', hs', heq⟩
      have hs : s = s' := congrArg Lexeme.value heq
      exact hs ▸ hs'
    · intro hs
      exact ⟨s, hs, rfl⟩
  simp only [hfind]
  exact forall_find?_isLongest_iff

/-- The lexicons differ at most in their symbols, and find the same ones. -/
structure SameSymbols (L L' : Lexicon) : Prop where
  rules : L.rules = L'.rules
  keywords : L.keywords = L'.keywords
  comment : L.comment = L'.comment
  identifier : L.identifier = L'.identifier
  number : L.number = L'.number
  symbol? : ∀ text, L.symbol? text = L'.symbol? text

theorem SameSymbols.lexeme?_eq (h : L.SameSymbols L') (text : List Char) (r : Rule) :
    L.lexeme? text r = L'.lexeme? text r := by
  cases r with
  | comment => simp only [lexeme?, comment?, h.comment]
  | keyword => simp only [lexeme?, keyword?, h.keywords]
  | symbol => exact h.symbol? text
  | identifier => simp only [lexeme?, identifier?, h.identifier]
  | number => simp only [lexeme?, number?, h.number]
  | endOfInput | whitespace | newline | string => rfl

theorem SameSymbols.lexeme_eq (h : L.SameSymbols L') (text : List Char) :
    L.lexeme text = L'.lexeme text := by
  have hrule : L.lexeme? text = L'.lexeme? text := funext (h.lexeme?_eq text)
  rw [lexeme, lexeme, recognise?, recognise?, hrule, h.rules]

/-- Replacing a part in both of the lexicons keeps them alike. -/
theorem SameSymbols.set (h : L.SameSymbols L') (s : Setting) : (L.set s).SameSymbols (L'.set s) := by
  cases s with
  | symbols table => exact ⟨h.rules, h.keywords, h.comment, h.identifier, h.number, fun _ => rfl⟩
  | keywords words => exact ⟨h.rules, rfl, h.comment, h.identifier, h.number, h.symbol?⟩
  | comment p => exact ⟨h.rules, h.keywords, rfl, h.identifier, h.number, h.symbol?⟩
  | identifier p => exact ⟨h.rules, h.keywords, h.comment, rfl, h.number, h.symbol?⟩
  | number p => exact ⟨h.rules, h.keywords, h.comment, h.identifier, rfl, h.symbol?⟩

/-- Tables with the same entries, none of them shadowed, find the same symbols. -/
theorem sameSymbols_of_longestFirst {table table' : List String}
    (hmem : ∀ s, s ∈ (L.withSymbols table).symbols ↔ s ∈ (L.withSymbols table').symbols)
    (h : LongestFirst (L.withSymbols table).symbols)
    (h' : LongestFirst (L.withSymbols table').symbols) :
    (L.withSymbols table).SameSymbols (L.withSymbols table') := by
  refine ⟨rfl, rfl, rfl, rfl, rfl, fun text => ?_⟩
  have hfind : (L.withSymbols table).symbols.find? (·.isPrefixOf text) =
      (L.withSymbols table').symbols.find? (·.isPrefixOf text) := by
    ext s
    rw [find?_eq_some_iff_isLongest h, find?_eq_some_iff_isLongest h', IsLongest.congr hmem]
  rw [symbol?, symbol?, hfind]

end Lexicon

/-! ## Symbol tokens -/

namespace Tokenizer

variable {t : Tokenizer} {s : List Char}

/-- No token is a shadowed symbol. -/
theorem value_ne_of_shadowed (h : Shadowed t.lexicon.symbols s)
    (hk : t.nextToken.1.kind = .symbol) : t.nextToken.1.value ≠ String.ofList s := by
  intro hv
  have hvalue : (t.lexicon.lexeme t.rest).value = s := String.ofList_injective hv
  obtain ⟨-, hr⟩ := Lexicon.lexeme?_of_kind_eq (r := .symbol) hk (by decide)
  obtain ⟨s', hfind, heq⟩ := Lexicon.symbol?_eq_some_iff.1 hr
  have hs : s' = s := by rw [← hvalue, heq]
  exact not_shadowed_of_find?_eq_some hfind (hs ▸ h)

end Tokenizer

/-- The symbol rule takes the longest symbol of a text, whatever the text is, if and only if no entry of
the table is shadowed, as is the case in the standard table. Two such tables with the same entries give
the same tokens for every source and the same answers to every history of calls. An entry that is
shadowed is no symbol of any source, and of no state of a tokenizer. -/
theorem symbols_longest_first (L : Lexicon) (table : List String) :
    let S := (L.withSymbols table).symbols
    ((∀ text, (∃ s ∈ S, s <+: text) →
        ∃ s, IsLongest S text s ∧
          (L.withSymbols table).symbol? text = some ⟨.symbol, s, s, text.drop s.length⟩) ↔
        LongestFirst S) ∧
      LongestFirst Lexicon.standard.symbols ∧
      (∀ table', (∀ s, s ∈ S ↔ s ∈ (L.withSymbols table').symbols) → LongestFirst S →
        LongestFirst (L.withSymbols table').symbols →
          (∀ source, (L.withSymbols table).tokenize source = (L.withSymbols table').tokenize source) ∧
          ∀ cs, (Tokenizer.calls { lexicon := L.withSymbols table } cs).1 =
            (Tokenizer.calls { lexicon := L.withSymbols table' } cs).1) ∧
      ∀ s ∈ S, Shadowed S s →
        (∀ source, ∀ token ∈ (L.withSymbols table).tokenize source, token.kind = .symbol →
          token.value ≠ String.ofList s) ∧
        ∀ t : Tokenizer, t.lexicon.symbols = S → t.nextToken.1.kind = .symbol →
          t.nextToken.1.value ≠ String.ofList s := by
  intro S
  refine ⟨Lexicon.forall_symbol?_isLongest_iff, by decide +kernel, ?_, ?_⟩
  · intro table' hmem hfirst hfirst'
    have hsame := Lexicon.sameSymbols_of_longestFirst hmem hfirst hfirst'
    refine ⟨Lexicon.tokenize_congr hsame.lexeme_eq, fun cs => ?_⟩
    exact Tokenizer.calls_congr (fun h => h.lexeme_eq) (fun s _ _ _ h => h.set s) hsame
  · intro s _ hshadowed
    have hstate (t : Tokenizer) (ht : t.lexicon.symbols = S) (hk : t.nextToken.1.kind = .symbol) :
        t.nextToken.1.value ≠ String.ofList s :=
      Tokenizer.value_ne_of_shadowed (ht.symm ▸ hshadowed) hk
    refine ⟨?_, hstate⟩
    intro source token htoken hk
    obtain ⟨u, hu, rfl⟩ := Tokenizer.exists_of_mem_drain htoken
    exact hstate u (congrArg Lexicon.symbols hu) hk

/-- Tables with symbols given twice, with one that is not ASCII and with one that is empty, in two
orders; and a table in which a slash stands before the longer symbol that starts with it. -/
theorem symbols_longest_first_of_tables :
    let L := Lexicon.standard.withKeywords ["é"]
    let table := ["éa", "==", "é", "=", "", "éa"]
    let table' := ["==", "=", "==", "éa", "é"]
    let shadowing := ["/", "/=", "="]
    (∀ s, s ∈ (L.withSymbols table).symbols ↔ s ∈ (L.withSymbols table').symbols) ∧
      LongestFirst (L.withSymbols table).symbols ∧ LongestFirst (L.withSymbols table').symbols ∧
      (L.withSymbols table).tokenize "===éab" = (L.withSymbols table').tokenize "===éab" ∧
      "/=".toList ∈ (L.withSymbols shadowing).symbols ∧
      Shadowed (L.withSymbols shadowing).symbols "/=".toList ∧
      ∀ token ∈ (L.withSymbols shadowing).tokenize "x /= 1", token.kind = .symbol →
        token.value ≠ String.ofList "/=".toList := by
  intro L table table' shadowing
  have hmem : ∀ s, s ∈ (L.withSymbols table).symbols ↔ s ∈ (L.withSymbols table').symbols := by
    intro s
    simp [L, table, table', Lexicon.withSymbols]
    tauto
  have hfirst : LongestFirst (L.withSymbols table).symbols := by decide
  have hfirst' : LongestFirst (L.withSymbols table').symbols := by decide
  have hentry : "/=".toList ∈ (L.withSymbols shadowing).symbols := by decide
  have hshadowed : Shadowed (L.withSymbols shadowing).symbols "/=".toList := by decide
  obtain ⟨-, -, hsame, -⟩ := symbols_longest_first L table
  obtain ⟨-, -, -, hnever⟩ := symbols_longest_first L shadowing
  exact ⟨hmem, hfirst, hfirst', (hsame table' hmem hfirst hfirst').1 _, hentry, hshadowed,
    (hnever _ hentry hshadowed).1 _⟩

end Lexing
