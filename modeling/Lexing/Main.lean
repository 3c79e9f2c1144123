import Lexing.Command.Outcome

/-!
The command line: `tokenize [OPTIONS] <FILE>`. All decisions are made by the outcome of the request;
here the file is read, the outcome printed and the log written. The variable `RUST_LOG` may name
the threshold of the log.
-/

namespace Lexing

namespace Command

/-- Reads the text of a file. -/
def readFile (path : String) : IO (Except ReadError String) := do
  try
    return decode (← IO.FS.readBinFile path)
  catch
    | .noFileOrDirectory .. => return .error .missing
    | .inappropriateType _ code _ =>
      return .error (if code = 21 then .isDirectory else .notDirectory)
    | .invalidArgument _ 36 _ => return .error .nameTooLong
    | e => return .error (.other (toString e))

/-- Writes the part of a log that is shown. -/
def writeLog (threshold : Threshold) (events : List Event) : IO Unit := do
  for line in threshold.lines events do
    IO.eprintln line

/-- Prints an outcome and the part of its log that is shown. -/
def Outcome.print (o : Outcome) (threshold : Threshold) : IO UInt32 := do
  writeLog threshold o.log
  IO.print o.output
  IO.eprint o.errors
  return o.status.toUInt32

/-- Runs the command with these arguments. -/
def run (arguments : List String) : IO UInt32 := do
  match Request.read arguments with
  | .error e =>
    IO.eprintln ("error: " ++ e.message)
    return usageStatus.toUInt32
  | .ok request =>
    let content ← match request with
      | .tokenize o => readFile o.file
      | _ => pure (.error .missing)
    let given? := (← IO.getEnv "RUST_LOG").bind Threshold.ofName?
    let threshold := request.threshold given?
    match request.outcome fun _ => content with
    | .error e =>
      writeLog threshold (request.log fun _ => content)
      IO.eprintln e.message
      return 101
    | .ok outcome => outcome.print threshold

end Command

end Lexing

/-- Prints the tokens of a source file. -/
def main (arguments : List String) : IO UInt32 :=
  Lexing.Command.run arguments
