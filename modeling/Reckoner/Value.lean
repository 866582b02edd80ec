import Reckoner.Number

/-!
# Values

What a literal denotes and a computation yields. Integers have 32 bits and wrap around.
-/

namespace Reckoner

/-- The types of values; `untyped` is the type of no value. -/
inductive ValueType where
  | integer
  | double
  | boolean
  | string
  | character
  | untyped
deriving DecidableEq

namespace ValueType

/-- The name under which a type is shown. -/
def name : ValueType → String
  | integer => "INTEGER"
  | double => "DOUBLE"
  | boolean => "BOOLEAN"
  | string => "STRING"
  | character => "CHARACTER"
  | untyped => "NO_TYPE"

/-- Every type. -/
def all : List ValueType :=
  [integer, double, boolean, string, character, untyped]

end ValueType

/-- A value of the language. -/
inductive Value where
  | integer (n : Int32)
  | double (x : Float)
  | boolean (b : Bool)
  | string (s : String)
  | character (c : Char)

namespace Value

/-- The type of a value. -/
def type : Value → ValueType
  | integer _ => .integer
  | double _ => .double
  | boolean _ => .boolean
  | string _ => .string
  | character _ => .character

/-- The text of a value: numbers in decimal, texts and characters as they are. -/
def text : Value → String
  | integer n => Decimal.integer n.toInt
  | double x => Double.text x
  | boolean b => if b then "true" else "false"
  | string s => s
  | character c => String.singleton c

/-- Values of different types differ. Doubles are compared as numbers: the two zeros are equal, and
what is no number differs from itself. -/
protected def beq : Value → Value → Bool
  | integer m, integer n => m == n
  | double x, double y => x == y
  | boolean a, boolean b => a == b
  | string s, string t => s == t
  | character c, character d => c == d
  | _, _ => false

instance : BEq Value := ⟨Value.beq⟩

end Value

end Reckoner
