import Lexing.Tokenizer

/-!
Sessions: histories of calls on one tokenizer. A call loads a text, takes a token or replaces a part
of the lexicon, and each is answered by a reply. A session adds what a user of tokenizers does
besides: taking many tokens at once, keeping a copy to go back to, and starting afresh.
-/

namespace Lexing

/-- A call on a tokenizer. -/
inductive Call where
  | load (source : String)
  | nextToken
  | next
  | set (s : Setting)

/-- What a call or a request is answered. -/
inductive Reply where
  | done
  /-- A token, or none when the sequence of tokens has ended. -/
  | token (token? : Option Token)
  | tokens (tokens : List Token)
deriving DecidableEq, Repr

namespace Tokenizer

/-- Answers a call, and gives the tokenizer after it. -/
def call (t : Tokenizer) : Call → Reply × Tokenizer
  | .load source => (.done, t.load source)
  | .nextToken =>
    let (token, u) := t.nextToken
    (.token (some token), u)
  | .next =>
    match t.next? with
    | none => (.token none, t)
    | some (token, u) => (.token (some token), u)
  | .set s => (.done, t.set s)

/-- Answers a history of calls, and gives the tokenizer after it. -/
def calls (t : Tokenizer) : List Call → List Reply × Tokenizer
  | [] => ([], t)
  | c :: cs =>
    let (reply, u) := t.call c
    let (replies, u) := u.calls cs
    (reply :: replies, u)

@[simp] theorem calls_nil (t : Tokenizer) : t.calls [] = ([], t) := rfl

@[simp] theorem calls_cons (t : Tokenizer) (c : Call) (cs : List Call) :
    t.calls (c :: cs) =
      ((t.call c).1 :: ((t.call c).2.calls cs).1, ((t.call c).2.calls cs).2) := rfl

theorem calls_append (t : Tokenizer) (cs ds : List Call) :
    t.calls (cs ++ ds) =
      ((t.calls cs).1 ++ ((t.calls cs).2.calls ds).1, ((t.calls cs).2.calls ds).2) := by
  induction cs generalizing t with
  | nil => rfl
  | cons c cs ih => simp [ih]

end Tokenizer

/-- What may be asked in a session. -/
inductive Request where
  | call (c : Call)
  /-- The tokens of up to `n` calls of `next`. -/
  | take (n : Nat)
  /-- All tokens that `next` still gives. -/
  | drain
  /-- The tokens of `n` calls of `nextToken`. -/
  | pull (n : Nat)
  /-- Keeps a copy of the tokenizer. -/
  | save
  /-- Goes back to the copy that was kept last. -/
  | restore
  /-- Starts afresh with the standard lexicon and no text. -/
  | fresh

/-- A tokenizer in use, and the copy of it that was kept last. -/
structure Session where
  tokenizer : Tokenizer := {}
  saved? : Option Tokenizer := none

namespace Session

/-- The session with its tokenizer after a call or several, beside what they answered. -/
private def reply {α : Type} (s : Session) (toReply : α → Reply) (result : α × Tokenizer) :
    Reply × Session :=
  (toReply result.1, { s with tokenizer := result.2 })

/-- Answers a request, and gives the session after it. -/
def request (s : Session) : Request → Reply × Session
  | .call c => s.reply id (s.tokenizer.call c)
  | .take n => s.reply .tokens (s.tokenizer.take n)
  | .drain => s.reply .tokens s.tokenizer.drain
  | .pull n => s.reply .tokens (s.tokenizer.pull n)
  | .save => (.done, { s with saved? := some s.tokenizer })
  | .restore => (.done, { s with tokenizer := s.saved?.getD s.tokenizer })
  | .fresh => (.done, { s with tokenizer := {} })

/-- Each request's reply, with the tokenizer after it. -/
def transcript (s : Session) : List Request → List (Reply × Tokenizer)
  | [] => []
  | r :: rs =>
    let (reply, s) := s.request r
    (reply, s.tokenizer) :: s.transcript rs

end Session

end Lexing
