import Lexing.Pattern.Expr

/-!
Programs for matching. An expression is turned into instructions that are followed one after the
other; a fork goes on at two places, and at the first of them preferably.

A repetition without limit is a loop. One that needs no round is headed by its fork when every round
takes a character. A round that may match the empty text stands before the fork, and another fork
may pass the whole loop by: so when such a round comes back to its start without having taken
anything, nothing new is found there, and the loop is left behind the round.
-/

namespace Lexing

/-- A step of a program. All but forks, jumps and acceptance go on with the next instruction. -/
inductive Instruction where
  /-- Takes a character of the set. -/
  | take (s : CharSet)
  /-- Goes on at both addresses, preferably at the first one. -/
  | fork (first second : Nat)
  | jump (target : Nat)
  /-- Begins the first group. -/
  | enter
  /-- Ends the first group. -/
  | leave
  /-- Goes on at the start of the whole text only. -/
  | textStart
  /-- Goes on at the end of the whole text only. -/
  | textEnd
  | accept
deriving DecidableEq, Repr

/-- Instructions by their addresses. -/
abbrev Program := Array Instruction

namespace Program

/-- A fork between another round of a repetition and what follows the repetition. -/
def choose (greedy : Bool) (again after : Nat) : Instruction :=
  if greedy then .fork again after else .fork after again

/-- The code some times in a row. Code is given by the address at which it starts. -/
def copies (code : Nat → List Instruction) : Nat → Nat → List Instruction
  | 0, _ => []
  | n + 1, address =>
    let round := code address
    round ++ copies code n (address + round.length)

/-- The code up to some times in a row. Every round may be passed by, together with all that follow
it. -/
def rounds (code : Nat → List Instruction) (greedy : Bool) : Nat → Nat → List Instruction
  | 0, _ => []
  | n + 1, address =>
    let round := code (address + 1)
    choose greedy (address + 1) (address + (n + 1) * (round.length + 1)) :: round ++
      rounds code greedy n (address + round.length + 1)

/-- The code once or more often in a row. -/
def loop (code : Nat → List Instruction) (greedy : Bool) (address : Nat) : List Instruction :=
  let round := code address
  round ++ [choose greedy address (address + round.length + 1)]

/-- The code as often as wanted in a row, or not at all. -/
def optionalLoop (code : Nat → List Instruction) (greedy consumes : Bool) (address : Nat) :
    List Instruction :=
  if consumes then
    let round := code (address + 1)
    choose greedy (address + 1) (address + round.length + 2) :: round ++ [.jump address]
  else
    let rounds := loop code greedy (address + 1)
    choose greedy (address + 1) (address + rounds.length + 1) :: rounds

end Program

namespace Expr

open Program

/-- The code of an expression at an address. It ends by going on behind itself. -/
def code : Expr → Nat → List Instruction
  | empty, _ => []
  | literal cs, _ => cs.map fun c => .take (.single c)
  | set s, _ => [.take s]
  | seq a b, address =>
    let first := a.code address
    first ++ b.code (address + first.length)
  | alt a b, address =>
    let first := a.code (address + 1)
    let second := b.code (address + first.length + 2)
    .fork (address + 1) (address + first.length + 2) :: first ++
      .jump (address + first.length + 2 + second.length) :: second
  | group i e, address =>
    -- Only the first group is recorded.
    if i = 1 then .enter :: e.code (address + 1) ++ [.leave] else e.code address
  | times e 0 none greedy, address => optionalLoop e.code greedy e.consumes address
  | times e (least + 1) none greedy, address =>
    let start := copies e.code least address
    start ++ loop e.code greedy (address + start.length)
  | times e least (some most) greedy, address =>
    let start := copies e.code least address
    start ++ rounds e.code greedy (most - least) (address + start.length)
  | textStart, _ => [.textStart]
  | textEnd, _ => [.textEnd]

/-- The program of an expression. -/
def program (e : Expr) : Program :=
  (e.code 0 ++ [Instruction.accept]).toArray

end Expr

end Lexing
