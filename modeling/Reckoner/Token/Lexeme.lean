import Reckoner.Diagnostic
import Reckoner.Text.Letter

/-!
# Lexemes

The rules by which a line is cut into pieces. Digits, blanks and letters form runs as long as they
last; `&&` and `||` take two characters; every other piece is one character.

* `Lexeme.first_append`: the first piece and the rest make up the text.
* `Lexeme.first_text_ne_nil`: the first piece is not empty.
-/

namespace Reckoner

/-- What a character says about the piece that it starts. -/
inductive Opening where
  | digit
  | blank
  | letter
  /-- The character is a piece by itself. -/
  | mark (kind : TokenKind)
  /-- The character is one half of a piece and has to be repeated. -/
  | half (kind : TokenKind)
  | stray
deriving DecidableEq

/-- What `c` says about the piece that it starts. -/
def Opening.ofChar (c : Char) : Opening :=
  if c.isDigit then .digit
  else if Text.isBlank c then .blank
  else if Text.isLetter c then .letter
  else match c with
    | '+' => .mark .plus
    | '-' => .mark .minus
    | '*' => .mark .times
    | '/' => .mark .slash
    | '%' => .mark .percent
    | '^' => .mark .caret
    | '(' => .mark .openParen
    | ')' => .mark .closeParen
    | '!' => .mark .bang
    | '&' => .half .and
    | '|' => .half .or
    | _ => .stray

/-- A piece of a line: its kind and its characters. -/
structure Lexeme where
  kind : TokenKind
  text : List Char
deriving DecidableEq

namespace Lexeme

/-- The first piece of the text `c :: rest`, and the text behind it. -/
def first (c : Char) (rest : List Char) : Lexeme × List Char :=
  match Opening.ofChar c with
  | .digit => (⟨.number, c :: rest.takeWhile Char.isDigit⟩, rest.dropWhile Char.isDigit)
  | .blank => (⟨.blank, c :: rest.takeWhile Text.isBlank⟩, rest.dropWhile Text.isBlank)
  | .letter =>
    let word := c :: rest.takeWhile Text.isLetter
    (⟨.ofWord (String.ofList word), word⟩, rest.dropWhile Text.isLetter)
  | .mark kind => (⟨kind, [c]⟩, rest)
  | .half kind =>
    if rest.head? = some c then (⟨kind, [c, c]⟩, rest.tail) else (⟨.stray, [c]⟩, rest)
  | .stray => (⟨.stray, [c]⟩, rest)

theorem first_append (c : Char) (rest : List Char) :
    (first c rest).1.text ++ (first c rest).2 = c :: rest := by
  unfold first
  split
  · simp
  · simp
  · simp
  · simp
  · split
    · rename_i h
      obtain ⟨more, rfl⟩ := List.head?_eq_some_iff.mp h
      simp
    · simp
  · simp

theorem first_text_ne_nil (c : Char) (rest : List Char) : (first c rest).1.text ≠ [] := by
  unfold first
  split
  · simp
  · simp
  · simp
  · simp
  · split <;> simp
  · simp

theorem length_first_lt (c : Char) (rest : List Char) :
    (first c rest).2.length < (c :: rest).length := by
  rw [← first_append c rest, List.length_append]
  have := List.length_pos_iff.mpr (first_text_ne_nil c rest)
  omega

/-! ## What a piece denotes -/

/-- The number that a run of digits denotes, wrapped around to 32 bits. -/
def number (digits : List Char) : Int32 :=
  digits.foldl (fun n c => n * 10 + Int32.ofNat (c.toNat - '0'.toNat)) 0

/-- The value that a piece denotes, if it is a literal. -/
def value? (x : Lexeme) : Option Value :=
  match x.kind with
  | .number => some (.integer (number x.text))
  | .trueWord => some (.boolean true)
  | .falseWord => some (.boolean false)
  | _ => none

/-- The token of a piece that starts at `position`. -/
def token (x : Lexeme) (position : Nat) : Token :=
  { kind := x.kind, position, literal := String.ofList x.text, value := x.value? }

/-- What is wrong with a piece that starts at `position`. The digits of a number have to be those
with which its value is written; they are not if the value wraps around or a zero leads. -/
def diagnostic? (x : Lexeme) (position : Nat) : Option Diagnostic :=
  match x.kind, x.text with
  | .number, digits =>
    let literal := String.ofList digits
    if Decimal.integer (number digits).toInt = literal then none
    else some ⟨⟨position, literal.utf8ByteSize⟩, .invalidNumber literal⟩
  | .stray, c :: _ => some (.strayCharacter position c)
  | _, _ => none

end Lexeme

end Reckoner
