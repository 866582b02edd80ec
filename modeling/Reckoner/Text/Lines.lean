/-!
# Lines of a byte stream

A line ends before a line feed, and before the carriage return in front of it if there is one. What
follows the last line feed is a line too, unless it is empty.

* `Lines.cut`: the lines of a stream.
* `Lines.decode?`: the text of a line in UTF-8.
* `Lines.join`: a text made of lines.
-/

namespace Reckoner.Text.Lines

/-- The lines with a byte put in front of the first one. -/
def prepend (b : UInt8) : List (List UInt8) → List (List UInt8)
  | [] => [[b]]
  | line :: lines => (b :: line) :: lines

/-- The lines of a stream. -/
def cut : List UInt8 → List (List UInt8)
  | [] => []
  | 0x0a :: rest => [] :: cut rest
  | 0x0d :: 0x0a :: rest => [] :: cut rest
  | b :: rest => prepend b (cut rest)

/-- The text of a line, if its bytes are UTF-8. -/
def decode? (line : List UInt8) : Option String :=
  String.fromUTF8? ⟨line.toArray⟩

/-- Lines as a text, each with a line feed behind it. -/
def join (lines : List String) : String :=
  String.join (lines.map (· ++ "\n"))

end Reckoner.Text.Lines
