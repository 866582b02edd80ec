import Reckoner.Token.Lexeme

/-!
# Reading tokens off a line

A lexer stands between two pieces of a line. It hands out one token after another, in two ways that
share its place: `next` goes on with the end of the line as often as it is asked, `next?` ends
behind the first such token of its own. No line is refused: what is wrong with the tokens handed
out is collected beside them.

* `Lexer.pending_next?`: each token of `next?` leaves less to come, so `drain` ends.
-/

namespace Reckoner

/-- A place in a line, and the complaints about what lies before it. -/
structure Lexer where
  rest : List Char
  position : Nat := 0
  ended : Bool := false
  diagnostics : Array Diagnostic := #[]

namespace Lexer

/-- The place before the first character of a line. -/
def ofString (line : String) : Lexer :=
  { rest := line.toList }

/-- The token at this place, and the place behind it. The end of the line is not left. -/
def next (l : Lexer) : Token × Lexer :=
  match l.rest with
  | [] => (.ending l.position, l)
  | c :: cs =>
    let lexeme := (Lexeme.first c cs).1
    let token := lexeme.token l.position
    (token,
      { l with
        rest := (Lexeme.first c cs).2
        position := token.span.stop
        diagnostics := l.diagnostics ++ (lexeme.diagnostic? l.position).toArray })

/-- The token at this place, unless the end of the line has been handed out in this way. -/
def next? (l : Lexer) : Option Token × Lexer :=
  if l.ended then (none, l)
  else (some l.next.1, { l.next.2 with ended := l.rest.isEmpty })

/-- A bound on the tokens that `next?` has yet to hand out. -/
def pending (l : Lexer) : Nat :=
  l.rest.length + if l.ended then 0 else 1

theorem next_of_nil {l : Lexer} (h : l.rest = []) : l.next = (.ending l.position, l) := by
  simp [next, h]

theorem rest_next_of_cons {l : Lexer} {c : Char} {cs : List Char} (h : l.rest = c :: cs) :
    l.next.2.rest = (Lexeme.first c cs).2 := by
  simp [next, h]

theorem pending_next? {l after : Lexer} {token : Token} (h : l.next? = (some token, after)) :
    after.pending < l.pending := by
  unfold next? at h
  split at h
  · simp at h
  · rename_i hended
    obtain ⟨-, rfl⟩ := Prod.mk.inj h
    cases hrest : l.rest with
    | nil => simp [pending, next_of_nil hrest, hrest, hended]
    | cons c cs =>
      have := Lexeme.length_first_lt c cs
      simpa [pending, rest_next_of_cons hrest, hrest, hended] using this

/-- All tokens that `next?` has yet to hand out, behind those already read, and the place behind
them. -/
def drain (l : Lexer) (read : Array Token := #[]) : Array Token × Lexer :=
  match _h : l.next? with
  | (none, after) => (read, after)
  | (some token, after) => drain after (read.push token)
termination_by l.pending
decreasing_by exact pending_next? _h

end Lexer

end Reckoner
