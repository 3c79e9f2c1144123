import Lexing.Pattern.Search

/-!
The written form of pattern expressions. A character stands for itself, save for the marks

* `.` for any character but the line break, and `[…]` or `[^…]` for a class of characters, which may
  hold ranges such as `a-z`; a bracket that comes first in a class, and a dash that comes first or
  last, stand for themselves;
* `(…)` for a group and `(?:…)` for a group that is not numbered;
* `|` between alternatives;
* `*`, `+`, `?`, `{n}`, `{m,}` and `{m,n}` for repetition of what stands before, lazy when another
  `?` follows;
* `^` and `$` for the start and the end of the text;
* `\` before a mark or any other punctuation, which then stands for itself; `\n`, `\r` and `\t` are
  the line break, the carriage return and the tab.

Operations on classes are not part of it, so an opening bracket inside a class has to be escaped,
and `&`, `-` and `~` are not doubled there.

Reading takes three passes, each by recursion on what the one before it gives: characters to glyphs,
in which the backslashes are gone; glyphs to items, in which classes and counts are whole; and items
to the expression, with the groups that are open kept on a stack.
-/

namespace Lexing.Expr

/-! ## Glyphs -/

/-- A character of a pattern, which is a mark when it is one and not escaped. -/
inductive Glyph where
  | plain (c : Char)
  | escaped (c : Char)
deriving DecidableEq, Repr

/-- The character of a glyph. -/
def Glyph.char : Glyph → Char
  | plain c => c
  | escaped c => c

/-- Whether a backslash before the character leaves it as it is. Angle brackets are no such
characters. -/
def isEscapable (c : Char) : Bool :=
  c.toNat < 128 && !c.isAlphanum && c != '<' && c != '>'

/-- The character that a backslash and the character `c` stand for. -/
def unescape? (c : Char) : Option Char :=
  if c = 'n' then some '\n'
  else if c = 'r' then some '\r'
  else if c = 't' then some '\t'
  else if isEscapable c then some c
  else none

/-- The glyphs of a pattern's text, unless it has an escape that means nothing. -/
def glyphs? : List Char → Option (List Glyph)
  | [] => some []
  | '\\' :: c :: text => do
    let c ← unescape? c
    let glyphs ← glyphs? text
    return .escaped c :: glyphs
  | c :: text => if c = '\\' then none else (glyphs? text).map (.plain c :: ·)

/-! ## Items -/

/-- An item of a pattern. -/
inductive Item where
  | atom (e : Expr)
  | openGroup (numbered : Bool)
  | closeGroup
  | bar
  | repetition (least : Nat) (most : Option Nat) (greedy : Bool)
deriving DecidableEq, Repr

/-- The item that a mark stands for by itself; `none` for a mark that is only part of an item. -/
def Item.ofMark? : Char → Option Item
  | '.' => some (.atom (.ofSet (CharSet.single '\n').complement))
  | '^' => some (.atom .textStart)
  | '$' => some (.atom .textEnd)
  | '|' => some .bar
  | ')' => some .closeGroup
  | '\\' | '[' | '(' | '*' | '+' | '?' | '\x7b' => none
  | c => some (.atom (.literal [c]))

/-- The item of a class with these members, or without them. -/
def Item.ofClass (negated : Bool) (s : CharSet) : Item :=
  .atom (.ofSet (if negated then s.complement else s))

/-- The bounds of a repetition mark. -/
def repetition? : Char → Option (Nat × Option Nat)
  | '*' => some (0, none)
  | '+' => some (1, none)
  | '?' => some (0, some 1)
  | _ => none

/-- The number that `n` becomes when the digit `c` is written after it. -/
def appendDigit? (n : Nat) (c : Char) : Option Nat :=
  if c.isDigit then some (10 * n + (c.toNat - '0'.toNat)) else none

/-- The bounds of a count: `least` is the number before the comma, when there is a comma, and `n`
the number before the closing brace. -/
def countBounds? : Option Nat → Option Nat → Option (Nat × Option Nat)
  | none, none => none
  | none, some n => some (n, some n)
  | some least, none => some (least, none)
  | some least, some n => if least ≤ n then some (least, some n) else none

/-- Whether a glyph and the one after it, inside a class, would be an operation on classes. -/
def isClassOperation (g : Glyph) (next? : Option Glyph) : Bool :=
  g == .plain '[' || ([.plain '&', .plain '-', .plain '~'].contains g && next? == some g)

mutual

/-- The items of a pattern. -/
def items? : List Glyph → Option (List Item)
  | [] => some []
  | .plain '(' :: .plain '?' :: .plain ':' :: rest => (items? rest).map (.openGroup false :: ·)
  | .plain '(' :: rest => (items? rest).map (.openGroup true :: ·)
  | .plain '[' :: .plain '^' :: .plain ']' :: rest => class? true false (.single ']') rest
  | .plain '[' :: .plain '^' :: rest => class? true true .empty rest
  | .plain '[' :: .plain ']' :: rest => class? false false (.single ']') rest
  | .plain '[' :: rest => class? false true .empty rest
  | .plain '\x7b' :: rest => count? none none rest
  | .plain c :: rest =>
    match repetition? c with
    | none => do
      let item ← Item.ofMark? c
      let items ← items? rest
      return item :: items
    | some (least, most) =>
      match rest with
      | .plain '?' :: rest => (items? rest).map (.repetition least most false :: ·)
      | rest => (items? rest).map (.repetition least most true :: ·)
  | .escaped c :: rest => (items? rest).map (.atom (.literal [c]) :: ·)

/-- The items of a pattern inside a class with these members so far. While the class is opening, it
holds nothing but dashes. -/
def class? (negated opening : Bool) (s : CharSet) : List Glyph → Option (List Item)
  | [] => none
  | .plain ']' :: rest => (items? rest).map (.ofClass negated s :: ·)
  | .plain '-' :: rest =>
    if !opening && isClassOperation (.plain '-') rest.head? then none
    else class? negated opening (s.add '-') rest
  | g :: .plain '-' :: h :: rest =>
    if isClassOperation g none || h == .plain '-' then none
    else if h == .plain ']' then
      (items? rest).map (.ofClass negated ((s.add g.char).add '-') :: ·)
    else if g.char ≤ h.char then class? negated false (s.insert g.char h.char) rest
    else none
  | g :: rest =>
    if isClassOperation g rest.head? then none else class? negated false (s.add g.char) rest

/-- The items of a pattern inside a count: `least` is the number before a comma, when there has been
one, and `n` the number that is being read. -/
def count? (least n : Option Nat) : List Glyph → Option (List Item)
  | .plain '\x7d' :: .plain '?' :: rest => do
    let (least, most) ← countBounds? least n
    let items ← items? rest
    return .repetition least most false :: items
  | .plain '\x7d' :: rest => do
    let (least, most) ← countBounds? least n
    let items ← items? rest
    return .repetition least most true :: items
  | .plain ',' :: rest => do
    if least.isSome then none
    let n ← n
    count? (some n) none rest
  | .plain c :: rest => do
    let n ← appendDigit? (n.getD 0) c
    count? least (some n) rest
  | _ => none

end

/-! ## Assembly -/

/-- A group that is being read, with its number if it has one: the alternatives that are complete
and the expressions of the one at hand, both latest first. -/
structure Frame where
  number? : Option Nat
  alternatives : List Expr
  current : List Expr

namespace Frame

/-- A group of which nothing has been read. -/
def opened (number? : Option Nat) : Frame :=
  ⟨number?, [], []⟩

/-- The frame with one more expression at its end. -/
def push (f : Frame) (e : Expr) : Frame :=
  { f with current := e :: f.current }

/-- The frame with another alternative begun. -/
def branch (f : Frame) : Frame :=
  { f with alternatives := sequence f.current.reverse :: f.alternatives, current := [] }

/-- What the frame holds: a sequence, or a choice between several. -/
def body (f : Frame) : Expr :=
  if f.alternatives.isEmpty then sequence f.current.reverse
  else anyOf f.branch.alternatives.reverse

/-- The group that the frame holds. -/
def close (f : Frame) : Expr :=
  match f.number? with
  | some i => .group i f.body
  | none => f.body

/-- The frame with its last expression repeated, if there is one. -/
def repeatLast? (f : Frame) (least : Nat) (most : Option Nat) (greedy : Bool) : Option Frame :=
  match f.current with
  | [] => none
  | e :: es => some { f with current := e.repeated least most greedy :: es }

end Frame

/-- Assembles items: `top` is the innermost group that is open, `outer` are those around it, and
`groups` is the number of groups numbered so far. -/
def assemble? (groups : Nat) (outer : List Frame) (top : Frame) : List Item → Option Expr
  | [] => if outer.isEmpty then some top.body else none
  | .atom e :: items => assemble? groups outer (top.push e) items
  -- Groups are numbered in the order in which they open.
  | .openGroup true :: items =>
    assemble? (groups + 1) (top :: outer) (.opened (some (groups + 1))) items
  | .openGroup false :: items => assemble? groups (top :: outer) (.opened none) items
  | .closeGroup :: items =>
    match outer with
    | [] => none
    | f :: outer => assemble? groups outer (f.push top.close) items
  | .bar :: items => assemble? groups outer top.branch items
  | .repetition least most greedy :: items => do
    let top ← top.repeatLast? least most greedy
    assemble? groups outer top items

/-- Reads the written form of an expression. -/
def read? (text : List Char) : Option Expr := do
  let glyphs ← glyphs? text
  let items ← items? glyphs
  -- The whole pattern is a group without a number, which nothing closes.
  assemble? 0 [] (.opened none) items

example : read? "a*b|a*\\+".toList =
    some (.seq (.times (.literal ['a']) 0 none true)
      (.set ((CharSet.single 'b').union (.single '+')))) := by decide +kernel

example : read? "a)".toList = none := by decide +kernel

end Lexing.Expr

namespace Lexing.Pattern

/-- Reads the written form of a pattern. -/
def read? (text : String) : Option Pattern :=
  (Expr.read? text.toList).map Expr.pattern

end Lexing.Pattern
