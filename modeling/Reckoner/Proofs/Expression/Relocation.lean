import Reckoner.Analysis
import Reckoner.Proofs.Expression.Reading
import Reckoner.Proofs.Expression.Shape
import Reckoner.Proofs.Token.Cut

/-!
# Readings in other places

Parser and typing look at the kinds, the characters and the values of tokens. Positions they only hand
on, to placeholders and notes. So if all positions on a line are replaced, the same is read and the
same is noted, with the positions replaced in the same way.

* `Parser.relocate`, `ParsedLine.relocate`, `Analysis.relocate`, `Answer.relocate`: what is read with
  all positions replaced.
* `Reads.relocate`: the relocated tokens are read in the same way; **`Parser.finish_relocate`**.
* `Expression.exists_elaborate_relocate`: types do not depend on places or on earlier notes.
* **`Analysis.evaluate_relocate`**: a relocated line comes to the same, with its notes relocated.
* `Diagnostic.message_relocate`: only the message about a stray character names its place.
-/

namespace Reckoner

variable {g : Nat → Nat} {limit : Option Nat}

/-! ## Places -/

namespace Parser

/-- The place with all positions replaced. -/
def relocate (g : Nat → Nat) (p : Parser) : Parser :=
  { p with
    rest := p.rest.map (Token.relocate g)
    stop := g p.stop
    diagnostics := p.diagnostics.map (Diagnostic.relocate g) }

theorem current_relocate (g : Nat → Nat) (p : Parser) :
    (p.relocate g).current = p.current.relocate g := by
  cases hrest : p.rest with
  | nil => simp [current, relocate, hrest, Token.relocate, Token.ending, Token.missing]
  | cons t ts => simp [current, relocate, hrest]

theorem kind_current_relocate (g : Nat → Nat) (p : Parser) :
    (p.relocate g).current.kind = p.current.kind := by
  rw [current_relocate]
  rfl

theorem unaryAt?_relocate (g : Nat → Nat) (m : Nat) (p : Parser) :
    (p.relocate g).unaryAt? m = p.unaryAt? m := by
  rw [unaryAt?, kind_current_relocate, unaryAt?]

theorem binaryAt?_relocate (g : Nat → Nat) (m : Nat) (p : Parser) :
    (p.relocate g).binaryAt? m = p.binaryAt? m := by
  rw [binaryAt?, kind_current_relocate, binaryAt?]

theorem advance_relocate (g : Nat → Nat) (p : Parser) :
    (p.relocate g).advance = p.advance.relocate g := by
  simp [advance, relocate]

theorem report_relocate (g : Nat → Nat) (complaint : Complaint) (p : Parser) :
    (p.relocate g).report complaint = (p.report complaint).relocate g := by
  have hspan : (p.relocate g).current.span = ⟨g p.current.span.start, p.current.span.length⟩ := by
    rw [current_relocate]
    rfl
  by_cases h : p.abandoned = true
  · simp [report, h, show (p.relocate g).abandoned = true from h]
  · simp only [report, h, show ¬ (p.relocate g).abandoned = true from h, hspan]
    simp [relocate, Diagnostic.relocate]

theorem abandon_relocate (g : Nat → Nat) (n : Nat) (p : Parser) :
    (p.relocate g).abandon n = (p.abandon n).relocate g := by
  rw [abandon, report_relocate]
  rfl

theorem expect_relocate (g : Nat → Nat) (kind : TokenKind) (p : Parser) : (p.relocate g).expect kind =
    ((p.expect kind).1.relocate g, (p.expect kind).2.relocate g) := by
  rw [expect, kind_current_relocate, current_relocate, report_relocate, advance_relocate, expect]
  by_cases h : p.current.kind = kind
  · rw [if_pos h, if_pos h]
  · rw [if_neg h, if_neg h]
    rfl

end Parser

/-! ## Readings -/

/-- The task with all positions replaced in what was read before it. -/
def Task.relocate (g : Nat → Nat) : Task → Task
  | nested minimum => nested minimum
  | operand minimum => operand minimum
  | chain minimum left height => chain minimum (left.map (Token.relocate g)) height

section Readings

variable {task : Task} {p p' : Parser} {e : Expression} {h : Nat}

/-- **Relocated tokens are read in the same way.** No choice depends on a position. -/
theorem Reads.relocate (g : Nat → Nat) (hr : Reads limit task p e h p') :
    Reads limit (task.relocate g) (p.relocate g) (e.map (Token.relocate g)) h (p'.relocate g) := by
  induction hr with
  | @shut m n p hn =>
    have hshut := Reads.shut (m := m) (p := p.relocate g) hn
    rw [Parser.current_relocate, Parser.abandon_relocate] at hshut
    exact hshut
  | @opened m h h' p p' p'' e e' hn _ _ ihfirst ihchain =>
    exact Reads.opened (p := p.relocate g) hn ihfirst ihchain
  | @unary m q h p p' e hq _ ih =>
    rw [← Parser.unaryAt?_relocate g] at hq
    rw [← Parser.advance_relocate] at ih
    have hunary := Reads.unary hq ih
    rw [Parser.current_relocate] at hunary
    exact hunary
  | @parenthesized m h p p' e hq hk _ ih =>
    rw [← Parser.unaryAt?_relocate g] at hq
    rw [← Parser.kind_current_relocate g] at hk
    rw [← Parser.advance_relocate] at ih
    have hinner := Reads.parenthesized hq hk ih
    rw [Parser.current_relocate, Parser.expect_relocate] at hinner
    exact hinner
  | @truth m p hq hk =>
    rw [← Parser.unaryAt?_relocate g] at hq
    rw [← Parser.kind_current_relocate g] at hk
    have htruth : Reads limit _ _ _ _ _ := .truth hq hk
    rw [Parser.current_relocate, Parser.advance_relocate] at htruth
    exact htruth
  | @number m p hq ho ht hf =>
    rw [← Parser.unaryAt?_relocate g] at hq
    rw [← Parser.kind_current_relocate g] at ho ht hf
    have hnumber : Reads limit _ _ _ _ _ := .number hq ho ht hf
    rw [Parser.expect_relocate] at hnumber
    exact hnumber
  | @done m h p e hq =>
    rw [← Parser.binaryAt?_relocate g] at hq
    exact .done hq
  | @cut m q n h p e hq hn =>
    rw [← Parser.binaryAt?_relocate g] at hq
    have hcut := Reads.cut (e := e.map (Token.relocate g)) hq hn
    rw [Parser.abandon_relocate] at hcut
    exact hcut
  | @link m q h h₁ h' p p₁ p' e r e' hq hn _ _ ihright ihchain =>
    rw [← Parser.binaryAt?_relocate g] at hq
    rw [← Parser.advance_relocate] at ihright
    refine .link hq hn ihright ?_
    rw [Parser.current_relocate]
    exact ihchain

end Readings

/-! ## Lines -/

/-- The line with all positions replaced. -/
def ParsedLine.relocate (g : Nat → Nat) (l : ParsedLine) : ParsedLine where
  root := l.root.map (Token.relocate g)
  ending := l.ending.relocate g
  diagnostics := l.diagnostics.map (Diagnostic.relocate g)

theorem Parser.finish_relocate (g : Nat → Nat) (limit : Option Nat) (p : Parser) :
    (p.relocate g).finish limit = (p.finish limit).relocate g := by
  have hread := (((Task.nested 0).isRead limit p).relocate g).result_eq
  obtain ⟨hroot, -, hafter⟩ : (nested limit 0 (p.relocate g)).expression = _ ∧
      (nested limit 0 (p.relocate g)).height = _ ∧ (nested limit 0 (p.relocate g)).after = _ := by
    simpa [Task.result, Task.relocate] using hread
  rw [finish, hroot, hafter, expect_relocate]
  rfl

/-! ## Typing -/

theorem Expression.map_relocate_id (e : Expression) : e.map (Token.relocate id) = e := by
  induction e with
  | literal t => rfl
  | unary op e ih => rw [map, ih]; rfl
  | binary l op r ihl ihr => rw [map, ihl, ihr]; rfl
  | parenthesized o e c ih => rw [map, ih]; rfl

theorem Expression.exists_elaborate_relocate (e : Expression) :
    ∃ (typed : TypedExpression) (own : List Diagnostic), ∀ g noted,
      (e.map (Token.relocate g)).elaborate noted =
        (typed, noted ++ (own.map (Diagnostic.relocate g)).toArray) := by
  induction e with
  | literal t => exact ⟨.literal t.denoted, [], fun g noted => by simp [map, elaborate]; rfl⟩
  | unary op e ih =>
    obtain ⟨typed, own, h⟩ := ih
    have hkind (g : Nat → Nat) : (op.relocate g).kind = op.kind := rfl
    cases ho : UnaryOverload.find? op.kind typed.type with
    | some o => exact ⟨.unary o typed, own, fun g noted => by simp [map, elaborate, h, hkind, ho]⟩
    | none =>
      refine ⟨typed, own ++ [⟨op.span, .undefinedUnary op.literal typed.type⟩], fun g noted => ?_⟩
      simp [map, elaborate, h, hkind, ho]
      rfl
  | binary l op r ihl ihr =>
    obtain ⟨left, ownl, hl⟩ := ihl
    obtain ⟨right, ownr, hr⟩ := ihr
    have hkind (g : Nat → Nat) : (op.relocate g).kind = op.kind := rfl
    cases ho : BinaryOverload.find? op.kind left.type right.type with
    | some o =>
      refine ⟨.binary left o right, ownl ++ ownr, fun g noted => ?_⟩
      simp [map, elaborate, hl, hr, hkind, ho]
    | none =>
      refine ⟨left, ownl ++ ownr ++
        [⟨op.span, .undefinedBinary op.literal left.type right.type⟩], fun g noted => ?_⟩
      simp [map, elaborate, hl, hr, hkind, ho]
      rfl
  | parenthesized o e c ih =>
    obtain ⟨typed, own, h⟩ := ih
    exact ⟨.parenthesized typed, own, fun g noted => by simp [map, elaborate, h]⟩

theorem Expression.elaborate_relocate (g : Nat → Nat) (e : Expression) (noted : Array Diagnostic) :
    (e.map (Token.relocate g)).elaborate (noted.map (Diagnostic.relocate g)) =
      ((e.elaborate noted).1, (e.elaborate noted).2.map (Diagnostic.relocate g)) := by
  obtain ⟨typed, own, h⟩ := e.exists_elaborate_relocate
  have hself := h id noted
  rw [map_relocate_id] at hself
  have hcomp : Diagnostic.relocate g ∘ Diagnostic.relocate id = Diagnostic.relocate g := rfl
  rw [h, hself]
  simp [hcomp]

/-! ## Answers -/

/-- The line with all positions replaced. -/
def Analysis.relocate (g : Nat → Nat) (a : Analysis) : Analysis where
  parsed := a.parsed.relocate g
  typed := a.typed
  diagnostics := a.diagnostics.map (Diagnostic.relocate g)

/-- The answer with all positions replaced; a value has none. -/
def Answer.relocate (g : Nat → Nat) : Answer → Answer
  | value v => value v
  | diagnostics ds => diagnostics (ds.map (Diagnostic.relocate g))

theorem Analysis.ofString_relocate {line other : String}
    (h : ParsedLine.ofString other = (ParsedLine.ofString line).relocate g) :
    ofString other = (ofString line).relocate g := by
  have htyped := (ParsedLine.ofString line).root.elaborate_relocate g
    (ParsedLine.ofString line).diagnostics
  rw [ofString, h]
  simp only [ParsedLine.relocate, htyped]
  rfl

/-- **A relocated line comes to the same**, with its notes relocated. -/
theorem Analysis.evaluate_relocate (g : Nat → Nat) (a : Analysis) :
    (a.relocate g).evaluate = a.evaluate.map (Answer.relocate g) := by
  have hempty : (a.relocate g).diagnostics.isEmpty = a.diagnostics.isEmpty := by
    simp [relocate, Array.isEmpty]
  rw [evaluate, hempty, evaluate]
  cases a.diagnostics.isEmpty with
  | true =>
    rw [if_pos rfl, if_pos rfl, relocate]
    cases a.typed.evaluate with
    | ok v => rfl
    | error f => rfl
  | false => rfl

theorem Diagnostic.message_relocate (g : Nat → Nat) (d : Diagnostic) :
    (∀ c, d.complaint = .strayCharacter c → (d.relocate g).message =
      "bad character input: '" ++ String.singleton c ++ "' at position " ++
        Decimal.natural (g d.span.start)) ∧
    ((∀ c, d.complaint ≠ .strayCharacter c) → (d.relocate g).message = d.message) := by
  refine ⟨fun c hc => by simp [message, relocate, hc], fun hother => ?_⟩
  cases hc : d.complaint with
  | strayCharacter c => exact absurd hc (hother c)
  | _ => simp [message, relocate, hc]

end Reckoner
