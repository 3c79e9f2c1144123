import Lexing.Command.Directory
import Lexing.Command.Options
import Lexing.Diagnostic.Report
import Lexing.Log

/-!
The outcome of the command: its exit status, what it prints as output and as errors, and what it
logs. The outcome depends on the options and on what the file holds, or why it cannot be read.

Either all tokens are printed or, when the command fails, none.
-/

namespace Lexing

namespace Command

/-- What the command did. -/
structure Outcome where
  status : Nat
  output : String := ""
  errors : String := ""
  log : List Event := []
deriving DecidableEq, Repr

/-- The tokens that are printed. -/
def visible (skipTrivia : Bool) (tokens : List Token) : List Token :=
  tokens.filter fun t => !(skipTrivia && t.kind.isTrivia)

/-- The scan of a source. -/
def Options.scan (o : Options) (source : String) : Tokenizer.Scan Event :=
  (Tokenizer.load {} source).loggedScan o.strict

/-- It comes to the tokens of the source, or to why strict options refuse it. -/
theorem Options.result_scan (o : Options) (source : String) :
    (o.scan source).result =
      if o.strict then tokenizeStrict source else .ok (tokenize source) :=
  Tokenizer.result_scan o.strict _ _

/-- What is logged for what reading the file has given. -/
def Options.log (o : Options) : Except ReadError String → List Event
  | .ok source =>
    let s := o.scan source
    -- The log covers all tokens, also those that are not printed.
    .reading o.file :: Tokenizer.loadEvents source ++ s.notes ++
      match s.result with
      | .ok tokens => [.tokenized tokens.length]
      | .error _ => []
  | .error _ => [.reading o.file]

/-- The outcome for a source that has been read. A report that cannot be laid out has no outcome. -/
def Options.outcomeOf (o : Options) (source : String) : Except LayoutError Outcome :=
  match (o.scan source).result with
  | .ok tokens =>
    .ok
      { status := 0
        output := Token.listing (visible o.skipTrivia tokens)
        log := o.log (.ok source) }
  | .error d =>
    (d.render source o.file).map fun text =>
      { status := 1, errors := text, log := o.log (.ok source) }

/-- The outcome for what reading the file has given. -/
def Options.outcome (o : Options) : Except ReadError String → Except LayoutError Outcome
  | .ok source => o.outcomeOf source
  | .error e =>
    .ok
      { status := 1
        errors := "Error: " ++ (Cause.unreadable o.file e.message).message ++ "\n"
        log := o.log (.error e) }

/-- The outcome of a request, where `content` is what reading a file gives. -/
def Request.outcome (content : String → Except ReadError String) :
    Request → Except LayoutError Outcome
  | .help => .ok { status := 0, output := helpText }
  | .version => .ok { status := 0, output := versionText }
  | .tokenize o => o.outcome (content o.file)

/-- What a request logs. A report that cannot be laid out leaves what has been logged before it. -/
def Request.log (content : String → Except ReadError String) : Request → List Event
  | .tokenize o => o.log (content o.file)
  | _ => []

/-- Which events the log shows: those up to the threshold that is given, and otherwise warnings, or
with the verbose flag also what helps to find faults. -/
def Request.threshold (given? : Option Threshold) : Request → Threshold
  | .tokenize o => given?.getD (.upTo (if o.verbose then .debug else .warn))
  | _ => .off

/-- The exit status of a command that was called with wrong arguments. -/
def usageStatus : Nat := 2

end Command

end Lexing
