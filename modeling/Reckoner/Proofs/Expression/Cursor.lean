import Reckoner.Proofs.Expression.Levels

/-!
# Cursors

A place on a line as an index into its tokens, the last of which is the end of the line. The index
goes up with every token that is taken, and nothing but what is read keeps it from going up behind the
last one: `next` does not look where it is, and only `peek` takes an index that is too high for the
last one.

* `Cursor.place`: the place that a cursor stands for.
* `Cursor.Moves`: how the tasks of reading move a cursor; `Cursor.Moves.reads`: they do to it what they
  do to the place.
* **`Cursor.Moves.advances`**: the index never goes down, and never behind the last token.
-/

namespace Reckoner

open Reckoner.Parser

/-- A place on a line by the index of the next token, with what was noted before it. -/
structure Cursor where
  /-- The tokens of the line, without separators and without the end of the line. -/
  pieces : List Token
  /-- Where the line ends. -/
  stop : Nat
  /-- The index of the next token. -/
  position : Nat := 0
  /-- How many expressions are open. -/
  depth : Nat := 0
  /-- Whether the rest of the line was given up. -/
  abandoned : Bool := false
  diagnostics : Array Diagnostic := #[]

namespace Cursor

/-- In front of the first token of a line. -/
def ofString (line : String) : Cursor :=
  let start := Parser.ofString line
  { pieces := start.rest, stop := start.stop, diagnostics := start.diagnostics }

/-- The tokens of the line and its end. -/
def tokens (c : Cursor) : List Token :=
  c.pieces ++ [.ending c.stop]

/-- The index of the end of the line. -/
def last (c : Cursor) : Nat :=
  c.pieces.length

theorem last_lt (c : Cursor) : c.last < c.tokens.length := by
  simp [last, tokens]

/-- The token that stands `offset` tokens further on, or else the end of the line. -/
def peek (c : Cursor) (offset : Nat) : Token :=
  c.tokens.get
    ⟨min (c.position + offset) c.last, Nat.lt_of_le_of_lt (Nat.min_le_right _ _) c.last_lt⟩

/-- The next token. -/
def current (c : Cursor) : Token :=
  c.peek 0

/-- Behind the next token. -/
def next (c : Cursor) : Cursor :=
  { c with position := c.position + 1 }

/-- Notes a complaint about the next token. -/
def report (complaint : Complaint) (c : Cursor) : Cursor :=
  if c.abandoned then c
  else { c with diagnostics := c.diagnostics.push ⟨c.current.span, complaint⟩ }

/-- Opens an expression. -/
def enter (c : Cursor) : Cursor :=
  { c with depth := c.depth + 1 }

/-- Closes an expression. -/
def leave (c : Cursor) : Cursor :=
  { c with depth := c.depth - 1 }

/-- Gives up the rest of the line. -/
def abandon (limit : Nat) (c : Cursor) : Cursor :=
  { c.report (.nestedTooDeep limit) with position := c.last, abandoned := true }

/-- A token of the given kind: the next one if it is of that kind, else an empty one. -/
def expect (kind : TokenKind) (c : Cursor) : Token × Cursor :=
  if c.current.kind = kind then (c.current, c.next)
  else (.missing kind c.current.position, c.report (.unexpectedToken c.current.kind kind))

/-- The precedence of the unary operator that comes next, if it is not below the minimum. -/
def unaryAt? (minimum : Nat) (c : Cursor) : Option Nat :=
  c.current.kind.unaryPrecedence?.filter (minimum ≤ ·)

/-- The precedence of the binary operator that comes next, if it is above the minimum. -/
def binaryAt? (minimum : Nat) (c : Cursor) : Option Nat :=
  c.current.kind.binaryPrecedence?.filter (minimum < ·)

/-- `Moves limit t c e h c'`: the task `t` comes to the expression `e`, taken to be `h` levels high,
and moves the cursor from `c` to `c'`. The rules are those of `Reads`. -/
inductive Moves (limit : Option Nat) : Task → Cursor → Expression → Nat → Cursor → Prop
  | shut {m n : Nat} {c : Cursor} (hn : reached? limit c.depth = some n) :
      Moves limit (.nested m) c (.literal (.missing .number c.current.position)) 1 (c.abandon n)
  | opened {m h h' : Nat} {c c' c'' : Cursor} {e e' : Expression}
      (hn : reached? limit c.depth = none) (hfirst : Moves limit (.operand m) c.enter e h c')
      (hchain : Moves limit (.chain m e h) c' e' h' c'') :
      Moves limit (.nested m) c e' h' c''.leave
  | unary {m q h : Nat} {c c' : Cursor} {e : Expression} (hq : c.unaryAt? m = some q)
      (hinner : Moves limit (.nested q) c.next e h c') :
      Moves limit (.operand m) c (.unary c.current e) (h + 1) c'
  | parenthesized {m h : Nat} {c c' : Cursor} {e : Expression} (hq : c.unaryAt? m = none)
      (hk : c.current.kind = .openParen) (hinner : Moves limit (.nested 0) c.next e h c') :
      Moves limit (.operand m) c (.parenthesized c.current e (c'.expect .closeParen).1) (h + 1)
        (c'.expect .closeParen).2
  | truth {m : Nat} {c : Cursor} (hq : c.unaryAt? m = none)
      (hk : c.current.kind = .trueWord ∨ c.current.kind = .falseWord) :
      Moves limit (.operand m) c (.literal c.current) 1 c.next
  | number {m : Nat} {c : Cursor} (hq : c.unaryAt? m = none) (ho : c.current.kind ≠ .openParen)
      (ht : c.current.kind ≠ .trueWord) (hf : c.current.kind ≠ .falseWord) :
      Moves limit (.operand m) c (.literal (c.expect .number).1) 1 (c.expect .number).2
  | done {m h : Nat} {c : Cursor} {e : Expression} (hq : c.binaryAt? m = none) :
      Moves limit (.chain m e h) c e h c
  | cut {m q n h : Nat} {c : Cursor} {e : Expression} (hq : c.binaryAt? m = some q)
      (hn : reached? limit h = some n) : Moves limit (.chain m e h) c e h (c.abandon n)
  | link {m q h h₁ h' : Nat} {c c₁ c' : Cursor} {e r e' : Expression}
      (hq : c.binaryAt? m = some q) (hn : reached? limit h = none)
      (hright : Moves limit (.nested q) c.next r h₁ c₁)
      (hchain : Moves limit (.chain m (.binary e c.current r) (max h h₁ + 1)) c₁ e' h' c') :
      Moves limit (.chain m e h) c e' h' c'

/-! ## The place of a cursor -/

/-- The place that a cursor stands for: what it has passed is gone. -/
def place (c : Cursor) : Parser :=
  { rest := c.pieces.drop c.position
    stop := c.stop
    depth := c.depth
    abandoned := c.abandoned
    diagnostics := c.diagnostics }

variable {limit : Option Nat} {t : Task} {c c' : Cursor} {e : Expression} {h m q : Nat}
  {kind : TokenKind}

theorem getElem?_min (c : Cursor) : c.tokens[min c.position c.last]? = some c.current :=
  List.getElem?_eq_getElem _

theorem getElem?_position (hc : c.position ≤ c.last) :
    c.tokens[c.position]? = some c.current := by
  have hcurrent := c.getElem?_min
  rwa [Nat.min_eq_left hc] at hcurrent

theorem current_place (c : Cursor) : c.place.current = c.current := by
  rw [Parser.current, place, List.head?_drop]
  rcases Nat.lt_or_ge c.position c.pieces.length with hlt | hge
  · have hcurrent := getElem?_position (Nat.le_of_lt hlt)
    rw [tokens, List.getElem?_append_left hlt] at hcurrent
    rw [hcurrent, Option.getD_some]
  · have hmin : min c.position c.last = c.pieces.length := Nat.min_eq_right hge
    have hcurrent := c.getElem?_min
    rw [hmin, tokens, List.getElem?_concat_length] at hcurrent
    rw [List.getElem?_eq_none hge]
    exact Option.some.inj hcurrent

theorem place_next (c : Cursor) : c.next.place = c.place.advance := by
  simp [place, next, advance]

theorem place_report (complaint : Complaint) (c : Cursor) :
    (c.report complaint).place = c.place.report complaint := by
  have habandoned : c.place.abandoned = c.abandoned := rfl
  rw [report, Parser.report, current_place, habandoned]
  split <;> rfl

theorem place_abandon (n : Nat) (c : Cursor) : (c.abandon n).place = c.place.abandon n := by
  have hreport := place_report (.nestedTooDeep n) c
  have hpieces : (c.report (.nestedTooDeep n)).pieces = c.pieces := by
    unfold report
    split <;> rfl
  rw [Parser.abandon, ← hreport]
  simp [place, abandon, last, hpieces]

theorem place_expect (kind : TokenKind) (c : Cursor) :
    c.place.expect kind = ((c.expect kind).1, (c.expect kind).2.place) := by
  rw [Parser.expect, expect, current_place]
  split
  · rw [place_next]
  · rw [place_report]

theorem unaryAt?_place (m : Nat) (c : Cursor) : c.place.unaryAt? m = c.unaryAt? m := by
  rw [Parser.unaryAt?, current_place, unaryAt?]

theorem binaryAt?_place (m : Nat) (c : Cursor) : c.place.binaryAt? m = c.binaryAt? m := by
  rw [Parser.binaryAt?, current_place, binaryAt?]

/-- **What moves a cursor reads at its place.** -/
theorem Moves.reads (hm : c.Moves limit t e h c') : Reads limit t c.place e h c'.place := by
  induction hm with
  | shut hn =>
    rw [place_abandon, ← current_place]
    exact .shut hn
  | opened hn _ _ ihfirst ihchain => exact .opened hn ihfirst ihchain
  | @unary m q h c c' e hq _ ih =>
    rw [place_next] at ih
    rw [← current_place]
    exact .unary ((unaryAt?_place m c).trans hq) ih
  | @parenthesized m h c c' e hq hk _ ih =>
    rw [place_next] at ih
    rw [← current_place] at hk ⊢
    have hread := Reads.parenthesized ((unaryAt?_place m c).trans hq) hk ih
    rwa [place_expect] at hread
  | @truth m c hq hk =>
    rw [← current_place] at hk ⊢
    rw [place_next]
    exact .truth ((unaryAt?_place m c).trans hq) hk
  | @number m c hq ho ht hf =>
    rw [← current_place] at ho ht hf
    have hread := @Reads.number limit m c.place ((unaryAt?_place m c).trans hq) ho ht hf
    rwa [place_expect] at hread
  | @done m h c e hq => exact .done ((binaryAt?_place m c).trans hq)
  | @cut m q n h c e hq hn =>
    rw [place_abandon]
    exact .cut ((binaryAt?_place m c).trans hq) hn
  | @link m q h h₁ h' c c₁ c' e r e' hq hn _ _ ihright ihchain =>
    rw [place_next] at ihright
    rw [← current_place] at ihchain
    exact .link ((binaryAt?_place m c).trans hq) hn ihright ihchain

/-! ## How the index goes up -/

/-- The cursor has gone on along the line: unless it was behind the last token before, it has not gone
back, and it is not behind the last token now. -/
structure Advances (c c' : Cursor) : Prop where
  pieces : c'.pieces = c.pieces
  stop : c'.stop = c.stop
  position : c.position ≤ c.last → c.position ≤ c'.position ∧ c'.position ≤ c'.last

namespace Advances

variable {a b : Cursor}

theorem last_eq (h : a.Advances b) : b.last = a.last := by
  rw [last, h.pieces, last]

theorem tokens_eq (h : a.Advances b) : b.tokens = a.tokens := by
  rw [tokens, h.pieces, h.stop, tokens]

theorem trans (hab : a.Advances b) (hbc : b.Advances c) : a.Advances c where
  pieces := hbc.pieces.trans hab.pieces
  stop := hbc.stop.trans hab.stop
  position ha := by
    obtain ⟨hle, hb⟩ := hab.position ha
    obtain ⟨hle', hc⟩ := hbc.position hb
    exact ⟨Nat.le_trans hle hle', hc⟩

theorem of_eq (hpieces : b.pieces = a.pieces) (hstop : b.stop = a.stop)
    (hposition : b.position = a.position) : a.Advances b where
  pieces := hpieces
  stop := hstop
  position ha := by
    rw [last, hpieces, hposition]
    exact ⟨Nat.le_refl _, ha⟩

theorem refl (c : Cursor) : c.Advances c :=
  of_eq rfl rfl rfl

theorem enter (c : Cursor) : c.Advances c.enter :=
  of_eq rfl rfl rfl

theorem leave (c : Cursor) : c.Advances c.leave :=
  of_eq rfl rfl rfl

theorem report (complaint : Complaint) (c : Cursor) : c.Advances (c.report complaint) := by
  unfold Cursor.report
  split
  · exact refl c
  · exact of_eq rfl rfl rfl

/-- **Only a token in front of the end is taken**: so the index stays at the last token at most. -/
theorem next (hk : c.current.kind ≠ .ending) : c.Advances c.next where
  pieces := rfl
  stop := rfl
  position hc := by
    refine ⟨Nat.le_succ _, Nat.lt_of_le_of_ne hc fun hlast => hk ?_⟩
    have hend : c.position = c.pieces.length := hlast
    have hcurrent := getElem?_position hc
    rw [hend, tokens, List.getElem?_concat_length] at hcurrent
    exact congrArg Token.kind (Option.some.inj hcurrent).symm

theorem abandon (n : Nat) (c : Cursor) : c.Advances (c.abandon n) where
  pieces := (report (.nestedTooDeep n) c).pieces
  stop := (report (.nestedTooDeep n) c).stop
  position hc := ⟨hc, Nat.le_of_eq (report (.nestedTooDeep n) c).last_eq.symm⟩

theorem expect (hkind : kind ≠ .ending) (c : Cursor) : c.Advances (c.expect kind).2 := by
  unfold Cursor.expect
  split
  · next hk => exact next (hk ▸ hkind)
  · exact report _ c

end Advances

theorem kind_ne_ending_of_unaryAt? (hq : c.unaryAt? m = some q) : c.current.kind ≠ .ending := by
  intro hk
  simp [unaryAt?, hk, TokenKind.unaryPrecedence?] at hq

theorem kind_ne_ending_of_binaryAt? (hq : c.binaryAt? m = some q) : c.current.kind ≠ .ending := by
  intro hk
  simp [binaryAt?, hk, TokenKind.binaryPrecedence?] at hq

theorem kind_ne_ending_of_openParen (hk : c.current.kind = .openParen) :
    c.current.kind ≠ .ending := by
  rw [hk]
  decide

/-- **The index never goes down, and never behind the last token**, whatever is read. -/
theorem Moves.advances (hm : c.Moves limit t e h c') : c.Advances c' := by
  induction hm with
  | shut hn => exact .abandon _ _
  | opened hn _ _ ihfirst ihchain =>
    exact (Advances.enter _).trans (ihfirst.trans (ihchain.trans (.leave _)))
  | unary hq _ ih => exact (Advances.next (kind_ne_ending_of_unaryAt? hq)).trans ih
  | parenthesized hq hk _ ih =>
    have hopen := Advances.next (kind_ne_ending_of_openParen hk)
    exact hopen.trans (ih.trans (.expect (by decide) _))
  | truth hq hk =>
    refine .next fun hending => ?_
    rcases hk with hk | hk <;> exact absurd (hk.symm.trans hending) (by decide)
  | number hq ho ht hf => exact .expect (by decide) _
  | done hq => exact .refl _
  | cut hq hn => exact .abandon _ _
  | link hq hn _ _ ihright ihchain =>
    exact (Advances.next (kind_ne_ending_of_binaryAt? hq)).trans (ihright.trans ihchain)

end Cursor

end Reckoner
