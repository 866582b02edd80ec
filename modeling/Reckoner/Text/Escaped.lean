import Reckoner.Text.Extender
import Reckoner.Text.Unprintable

/-!
# Escaped text

A text in the form in which a listing shows it on one line.

* `escape`: characters with a letter of their own are written as a backslash and that letter,
  characters that cannot be shown as `\u`, an opening brace, the code point in hexadecimal and a
  closing brace. An extender counts as one that cannot be shown only where the text starts, since
  there it would be drawn onto what stands before the text.
-/

namespace Reckoner.Text

/-- What follows the backslash for a character with a letter of its own. -/
def mnemonic? : Char → Option Char
  | '\x00' => some '0'
  | '\t' => some 't'
  | '\r' => some 'r'
  | '\n' => some 'n'
  | '"' => some '"'
  | '\'' => some '\''
  | '\\' => some '\\'
  | _ => none

/-- A character given by its code point. -/
def codePoint (c : Char) : List Char :=
  ['\\', 'u', '\x7b'] ++ Nat.toDigits 16 c.toNat ++ ['\x7d']

/-- The written form of one character; `leading` says that the text starts with it. -/
def escapeChar (leading : Bool) (c : Char) : List Char :=
  match mnemonic? c with
  | some m => ['\\', m]
  | none => if isUnprintable c || (leading && isExtender c) then codePoint c else [c]

/-- The written form of a text. -/
def escape : List Char → List Char
  | [] => []
  | c :: rest => escapeChar true c ++ rest.flatMap (escapeChar false)

end Reckoner.Text
