import Lexing.Strict
import Lexing.Text.Quoted

/-!
The log: what happens while a source is read, as a list of events in the order in which they happen.
An event has a level, and a threshold says up to which level events are shown.

The events of a scan are its notes. A character that no rule accepts is logged before its token, and
a strict scan logs nothing after the token that it refuses.
-/

namespace Lexing

/-- How much a reader of the log has to care about an event, gravest first. -/
inductive Level where
  | error
  | warn
  | info
  | debug
  | trace
deriving DecidableEq, Repr

namespace Level

/-- The name of the level in log lines. -/
def name : Level → String
  | error => "ERROR"
  | warn => "WARN"
  | info => "INFO"
  | debug => "DEBUG"
  | trace => "TRACE"

/-- The place of the level in the order of gravity. -/
def rank : Level → Nat
  | error => 0
  | warn => 1
  | info => 2
  | debug => 3
  | trace => 4

end Level

/-- Which events a log shows. -/
inductive Threshold where
  | off
  /-- The events of this level and of graver ones. -/
  | upTo (l : Level)
deriving DecidableEq, Repr

namespace Threshold

/-- Whether events of the level are shown. -/
def shows : Threshold → Level → Bool
  | off, _ => false
  | upTo l, m => m.rank ≤ l.rank

/-- The threshold of this name. -/
def ofName? : String → Option Threshold
  | "off" => some off
  | "error" => some (upTo .error)
  | "warn" => some (upTo .warn)
  | "info" => some (upTo .info)
  | "debug" => some (upTo .debug)
  | "trace" => some (upTo .trace)
  | _ => none

end Threshold

/-- Something that happens while a source is read. -/
inductive Event where
  /-- A file is about to be read. -/
  | reading (path : String)
  /-- A source of so many bytes has been loaded. -/
  | loaded (bytes : Nat)
  /-- A character that no rule accepts. -/
  | unrecognised (character : Char) (position : Position)
  | token (t : Token)
  /-- A strict scan refuses a token. -/
  | rejecting (t : Token)
  /-- A scan has come to its end with so many tokens. -/
  | tokenized (count : Nat)
deriving DecidableEq, Repr

namespace Event

/-- The level of the event. -/
def level : Event → Level
  | reading _ => .debug
  | loaded _ => .debug
  | unrecognised _ _ => .debug
  | token _ => .trace
  | rejecting _ => .warn
  | tokenized _ => .info

/-- The part of the program that logs the event. -/
def target : Event → String
  | reading _ => "tokenize"
  | tokenized _ => "tokenize"
  | _ => "dsl_tokenizer::lexer::lexer"

/-- The fields that name a position. -/
def positionFields (p : Position) : String :=
  "line=" ++ toString p.line ++ " column=" ++ toString p.column

/-- The event in words. An underscore stands for the time that a scan took. -/
def message : Event → String
  | reading path => "Tokenizing file: " ++ quoted path
  | loaded bytes => "loaded source bytes=" ++ toString bytes
  | unrecognised c p =>
    "unrecognised character character=" ++ String.ofList (quotedCharacter c) ++ " " ++
      positionFields p
  | token t =>
    "token kind=" ++ t.kind.name ++ " value=" ++ quoted t.value ++ " " ++ positionFields t.position
  | rejecting t =>
    "rejecting unrecognised token value=" ++ quoted t.value ++ " " ++ positionFields t.position
  | tokenized count => "tokenized count=" ++ toString count ++ " elapsed=_"

/-- The line of the event in a log. -/
def line (e : Event) : String :=
  e.level.name ++ " " ++ e.target ++ ": " ++ e.message

end Event

/-- The lines of the events that are shown. -/
def Threshold.lines (threshold : Threshold) (events : List Event) : List String :=
  (events.filter fun e => threshold.shows e.level).map Event.line

namespace Tokenizer

/-- What loading a source logs. -/
def loadEvents (source : String) : List Event :=
  [.loaded source.utf8ByteSize]

/-- What taking the token at the cursor logs. -/
def nextEvents (t : Tokenizer) : List Event :=
  match t.lexicon.recognise? t.rest, t.rest with
  | none, c :: _ => [.unrecognised c t.position, .token t.nextToken.1]
  | _, _ => [.token t.nextToken.1]

/-- What a scan logs when it takes the token at the cursor. -/
def scanEvents (strict : Bool) (t : Tokenizer) (token : Token) : List Event :=
  t.nextEvents ++ if refuses strict token then [.rejecting token] else []

/-- A scan that notes what it logs. -/
def loggedScan (strict : Bool) (t : Tokenizer) : Scan Event :=
  t.scan strict (scanEvents strict)

end Tokenizer

end Lexing
