import Lexing.Text.Quoted
import Lexing.Token

/-!
Diagnostics: what is wrong with a source, and where. A cause has a name, a message and often a tip;
a diagnostic adds the position.
-/

namespace Lexing

/-- What is wrong with a source. -/
inductive Cause where
  /-- A token that the language does not know. -/
  | unrecognisedToken (token : String)
  /-- A string literal without its closing quote. -/
  | unterminatedString
  /-- A file that cannot be read, and the reason that the system gives. -/
  | unreadable (path reason : String)
deriving DecidableEq, Repr

namespace Cause

/-- The name of the cause in reports. -/
def name : Cause → String
  | unrecognisedToken _ => "UnrecognisedToken"
  | unterminatedString => "UnterminatedString"
  | unreadable _ _ => "Io"

/-- The cause in words. -/
def message : Cause → String
  | unrecognisedToken token => "unrecognised token: " ++ quoted token
  | unterminatedString => "unterminated string literal"
  | unreadable path reason => "failed to read " ++ quoted path ++ ": " ++ reason

theorem message_unreadable (path reason : String) :
    (unreadable path reason).message = "failed to read " ++ quoted path ++ ": " ++ reason := rfl

/-- Advice to the author of the source, if there is any. -/
def tip? : Cause → Option String
  | unrecognisedToken token => some ("`" ++ escaped token ++ "` is not part of the language")
  | unterminatedString => some "String literal is missing its closing quote"
  | unreadable _ _ => none

end Cause

/-- A cause at a position. -/
structure Diagnostic where
  cause : Cause
  position : Position
deriving DecidableEq, Repr

namespace Diagnostic

/-- The diagnostic in words. -/
def message (d : Diagnostic) : String :=
  d.cause.message ++ " at " ++ toString d.position

/-- Why a token of the unknown kind is refused. A lone double quote opens a string literal that does
not end. -/
def ofUnknown (token : Token) : Diagnostic where
  cause := if token.value = "\"" then .unterminatedString else .unrecognisedToken token.value
  position := token.position

end Diagnostic

end Lexing
