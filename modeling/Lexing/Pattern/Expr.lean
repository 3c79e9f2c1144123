import Lexing.Pattern.CharSet

/-!
Pattern expressions, the patterns that can be written down. They are built with `Expr.sequence`,
`Expr.anyOf` and `Expr.repeated`, which keep them in a simple form: sequences and choices are flat,
neighbouring characters are one literal, and a choice between characters is a set.

Alternatives that all begin alike are joined there: the common beginning is matched first, and only
what follows it is a choice. So between `a*b` and `a*c` the greater number of letters `a` is
preferred, and not the left alternative.
-/

namespace Lexing

/-- A pattern expression. -/
inductive Expr where
  /-- Matches the empty text. -/
  | empty
  /-- Matches these characters, of which there is at least one. -/
  | literal (characters : List Char)
  /-- Matches one character of the set, which has several. -/
  | set (s : CharSet)
  | seq (a b : Expr)
  /-- Matches what either side matches, preferably the left one. -/
  | alt (a b : Expr)
  | group (index : Nat) (e : Expr)
  /-- Repeats `least` times and then up to `most` times in all, or without limit; as often as it
  can, or as seldom when it is not greedy. -/
  | times (e : Expr) (least : Nat) (most : Option Nat) (greedy : Bool)
  /-- Matches at the start of the whole text only. -/
  | textStart
  /-- Matches at the end of the whole text only. -/
  | textEnd
deriving DecidableEq, Repr

namespace Expr

/-- Matches one character of the set. -/
def ofSet (s : CharSet) : Expr :=
  match s.single? with
  | some c => literal [c]
  | none => set s

/-- Whether the expression never matches the empty text. -/
def consumes : Expr → Bool
  | empty => false
  | literal _ => true
  | set _ => true
  | seq a b => a.consumes || b.consumes
  | alt a b => a.consumes && b.consumes
  | group _ e => e.consumes
  | times e least _ _ => least != 0 && e.consumes
  | textStart => false
  | textEnd => false

/-- Whether the expression matches no other text than the empty one. -/
def neverConsumes : Expr → Bool
  | literal _ => false
  | set _ => false
  | seq a b => a.neverConsumes && b.neverConsumes
  | alt a b => a.neverConsumes && b.neverConsumes
  | group _ e => e.neverConsumes
  | times e _ _ _ => e.neverConsumes
  | empty => true
  | textStart => true
  | textEnd => true

/-- The expression repeated. More than one round is of no use when rounds take nothing, and a single
round is the expression itself. -/
def repeated (e : Expr) (least : Nat) (most : Option Nat) (greedy : Bool) : Expr :=
  let (least, most) :=
    if e.neverConsumes then (min least 1, some (min (most.getD 1) 1)) else (least, most)
  if most = some 0 then empty
  else if least = 1 ∧ most = some 1 then e
  else times e least most greedy

/-- The parts of a sequence. Any other expression is its only part. -/
def parts : Expr → List Expr
  | empty => []
  | seq a b => a.parts ++ b.parts
  | e => [e]

/-- The parts with one more part before them; neighbouring literals become one. -/
def prepend : Expr → List Expr → List Expr
  | literal cs, literal ds :: es => literal (cs ++ ds) :: es
  | e, es => e :: es

/-- The expressions one after the other. -/
def sequence (es : List Expr) : Expr :=
  go ((es.flatMap parts).foldr prepend [])
where
  /-- The sequence of these parts. -/
  go : List Expr → Expr
    | [] => empty
    | [e] => e
    | e :: es => seq e (go es)

/-- The alternatives of an expression. Any other expression is its only alternative. -/
def branches : Expr → List Expr
  | alt a b => a.branches ++ b.branches
  | e => [e]

/-- The set of the character of a literal that has only one. -/
def ofCharacter? : Expr → Option CharSet
  | literal [c] => some (.single c)
  | _ => none

/-- The set of an expression that is one. -/
def toSet? : Expr → Option CharSet
  | set s => some s
  | _ => none

/-- The set that does for a choice between the expressions, if all are characters or all sets. -/
def merged? (es : List Expr) : Option CharSet :=
  ((es.mapM ofCharacter?).orElse fun _ => es.mapM toSet?).map (·.foldl .union .empty)

/-- A choice between the expressions, of which there is at least one. -/
def choice (es : List Expr) : Expr :=
  let alternatives := es.flatMap branches
  match merged? alternatives with
  | some s => ofSet s
  | none => go alternatives
where
  /-- The choice between these alternatives. -/
  go : List Expr → Expr
    | [] => empty
    | [e] => e
    | e :: es => alt e (go es)

/-- What two lists both begin with. -/
def commonStart : List Expr → List Expr → List Expr
  | a :: as, b :: bs => if a = b then a :: commonStart as bs else []
  | _, _ => []

/-- What all sequences begin with; nothing when one of them has fewer than two parts. -/
def sharedStart : List (List Expr) → List Expr
  | [] => []
  | s :: ss => if (s :: ss).all (2 ≤ ·.length) then ss.foldl commonStart s else []

/-- A choice between the expressions, behind what they all begin with. -/
def anyOf (es : List Expr) : Expr :=
  let sequences := (es.flatMap branches).map parts
  let start := sharedStart sequences
  sequence (start ++ [choice (sequences.map fun s => sequence (s.drop start.length))])

end Expr

end Lexing
