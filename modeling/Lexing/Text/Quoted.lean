import Lexing.Unicode.GraphemeExtender
import Lexing.Unicode.Printable

/-!
Text as messages show it. A backslash introduces an escape: `\0`, `\t`, `\r`, `\n` and `\\` stand
for control characters and the backslash, a quote may be written `\'` or `\"`, and any other
character that cannot be shown is written by its code point, as in `\u{200b}`.

Three forms differ in the quotes they escape and in how they treat a grapheme extender, which would
be drawn upon whatever stands before it: quoted text and quoted characters escape every extender,
escaped text without quotes only one at its start.
-/

namespace Lexing

namespace Escape

/-- The letter that stands for the character after a backslash, for characters that have one in
every form. -/
def letter? (c : Char) : Option Char :=
  if c = '\x00' then some '0'
  else if c = '\t' then some 't'
  else if c = '\r' then some 'r'
  else if c = '\n' then some 'n'
  else if c = '\\' then some '\\'
  else none

/-- A character written by its code point, in lower-case hexadecimal without leading zeros. -/
def codePoint (c : Char) : List Char :=
  ['\\', 'u', '\x7b'] ++ Nat.toDigits 16 c.toNat ++ ['\x7d']

/-- One character, where `quotes` are the quotes to escape and `atStart` says that an extender has
nothing before it to be drawn upon. -/
def character (quotes : List Char) (atStart : Bool) (c : Char) : List Char :=
  match letter? c with
  | some l => ['\\', l]
  | none =>
    if c ∈ quotes then ['\\', c]
    else if atStart && Unicode.isExtender c then codePoint c
    else if Unicode.isPrintable c then [c]
    else codePoint c

end Escape

/-- The text between double quotes, in which double quotes are escaped. -/
def quotedText (text : List Char) : List Char :=
  '"' :: text.flatMap (Escape.character ['"'] true) ++ ['"']

/-- The character between single quotes, in which the single quote is escaped. -/
def quotedCharacter (c : Char) : List Char :=
  '\'' :: Escape.character ['\''] true c ++ ['\'']

/-- The text with escapes and without quotes around it; both quotes are escaped. -/
def escapedText : List Char → List Char
  | [] => []
  | c :: text =>
    Escape.character ['\'', '"'] true c ++ text.flatMap (Escape.character ['\'', '"'] false)

/-- Text between double quotes, as a string. -/
def quoted (s : String) : String :=
  String.ofList (quotedText s.toList)

/-- Text with escapes, as a string. -/
def escaped (s : String) : String :=
  String.ofList (escapedText s.toList)

example : quotedText "it's \"1\"\n".toList = "\"it's \\\"1\\\"\\n\"".toList := by decide +kernel

example : escapedText "it's".toList = "it\\'s".toList := by decide +kernel

example : quotedCharacter '"' = "'\"'".toList := by decide +kernel

end Lexing
