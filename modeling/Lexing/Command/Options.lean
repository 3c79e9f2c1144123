/-!
The arguments of the command. They are read from left to right, and the first thing that settles the
matter decides: a fault, or a request for help or for the version. Only when all arguments have been
read is a missing file a fault.

Flags may stand before or after the file. Long flags are written out, short ones may be joined
behind one dash. After `--` every argument is a file, and so is a single dash anywhere.
-/

namespace Lexing

namespace Command

/-- A flag of the command. -/
inductive Flag where
  | strict
  | skipTrivia
  | verbose
  | help
  | version
deriving DecidableEq, Repr

namespace Flag

/-- The flag of this long name. -/
def ofLong? : String → Option Flag
  | "strict" => some strict
  | "skip-trivia" => some skipTrivia
  | "verbose" => some verbose
  | "help" => some help
  | "version" => some version
  | _ => none

/-- The flag of this letter. -/
def ofShort? : Char → Option Flag
  | 'v' => some verbose
  | 'h' => some help
  | 'V' => some version
  | _ => none

/-- The long name of the flag. -/
def name : Flag → String
  | strict => "strict"
  | skipTrivia => "skip-trivia"
  | verbose => "verbose"
  | help => "help"
  | version => "version"

end Flag

/-- How a source file is to be read. -/
structure Options where
  file : String
  /-- Whether the first unknown token is an error. -/
  strict : Bool := false
  /-- Whether whitespace and comments are left out of the output. -/
  skipTrivia : Bool := false
  /-- Whether more of the log is shown. -/
  verbose : Bool := false
deriving DecidableEq, Repr

/-- What the arguments ask for. -/
inductive Request where
  | help
  | version
  | tokenize (o : Options)
deriving DecidableEq, Repr

/-- What is wrong with the arguments. -/
inductive UsageError where
  | missingFile
  | emptyFile
  | extraFile (argument : String)
  | unknownFlag (argument : String)
  | repeatedFlag (f : Flag)
  | flagWithValue (argument : String)
deriving DecidableEq, Repr

/-- The error in words. -/
def UsageError.message : UsageError → String
  | missingFile => "a source file is required"
  | emptyFile => "the name of the source file is empty"
  | extraFile argument => "there is more than one source file: " ++ argument
  | unknownFlag argument => "there is no such option: " ++ argument
  | repeatedFlag f => "the option is given twice: --" ++ f.name
  | flagWithValue argument => "the option takes no value: " ++ argument

/-- Why the reading of arguments ends before the last one. -/
inductive Stop where
  | fault (e : UsageError)
  | settled (r : Request)
deriving DecidableEq, Repr

/-- What has been read of the arguments so far. -/
structure Seen where
  file? : Option String := none
  flags : List Flag := []

namespace Seen

/-- Takes a flag. -/
def flag (s : Seen) : Flag → Except Stop Seen
  | .help => .error (.settled .help)
  | .version => .error (.settled .version)
  | f =>
    if f ∈ s.flags then .error (.fault (.repeatedFlag f))
    else .ok { s with flags := f :: s.flags }

/-- Takes the flags that are joined behind one dash. -/
def shortFlags (argument : String) (s : Seen) : List Char → Except Stop Seen
  | [] => .ok s
  | c :: cs =>
    match Flag.ofShort? c with
    | none => .error (.fault (.unknownFlag argument))
    | some f => do (← s.flag f).shortFlags argument cs

/-- Takes a flag that is written out, given what stands after its two dashes. -/
def longFlag (argument : String) (s : Seen) (name : List Char) : Except Stop Seen :=
  match Flag.ofLong? (String.ofList (name.takeWhile (· ≠ '='))) with
  | none => .error (.fault (.unknownFlag argument))
  | some f => if '=' ∈ name then .error (.fault (.flagWithValue argument)) else s.flag f

/-- Takes a file. -/
def file (s : Seen) (argument : String) : Except Stop Seen :=
  if argument = "" then .error (.fault .emptyFile)
  else if s.file?.isSome then .error (.fault (.extraFile argument))
  else .ok { s with file? := some argument }

/-- Takes an argument that stands before any `--`. -/
def argument (s : Seen) (argument : String) : Except Stop Seen :=
  match argument.toList with
  | '-' :: '-' :: name => s.longFlag argument name
  | '-' :: c :: cs => s.shortFlags argument (c :: cs)
  | _ => s.file argument

/-- Takes all arguments. -/
def arguments (s : Seen) : List String → Except Stop Seen
  | [] => .ok s
  | a :: rest =>
    if a = "--" then rest.foldlM file s
    else do (← s.argument a).arguments rest

/-- The options that have been read, if they name a file. -/
def options (s : Seen) : Except UsageError Options :=
  match s.file? with
  | none => .error .missingFile
  | some file =>
    .ok
      { file
        strict := .strict ∈ s.flags
        skipTrivia := .skipTrivia ∈ s.flags
        verbose := .verbose ∈ s.flags }

end Seen

/-- Reads the arguments of the command. -/
def Request.read (arguments : List String) : Except UsageError Request :=
  match ({} : Seen).arguments arguments with
  | .error (.fault e) => .error e
  | .error (.settled r) => .ok r
  | .ok s => s.options.map .tokenize

/-- What the command prints when it is asked for help, line by line. -/
def helpLines : List String :=
  ["Print the token stream of a source file",
   "",
   "Usage: tokenize [OPTIONS] <FILE>",
   "",
   "Arguments:",
   "  <FILE>  Source file to tokenize",
   "",
   "Options:",
   "      --strict       Fail on the first unrecognised token instead of emitting it",
   "      --skip-trivia  Leave whitespace and comment tokens out of the output",
   "  -v, --verbose      Enable debug logging",
   "  -h, --help         Print help",
   "  -V, --version      Print version"]

/-- What the command prints when it is asked for help. -/
def helpText : String :=
  String.join (helpLines.map (· ++ "\n"))

/-- What the command prints when it is asked for its version. -/
def versionText : String :=
  "dsl-tokenizer 0.1.0\n"

end Command

end Lexing
