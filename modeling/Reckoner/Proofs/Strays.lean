import Reckoner.Proofs.Expression.Walk
import Reckoner.Proofs.Token.Strays
import Reckoner.Proofs.Typing.Decision

/-!
# Stray characters are blanks

Nothing that is read or computed depends on a stray character: with blanks in its place a line has
the same tree and the same end, and of what was noted only the complaint about the character is
missing.

* `Parser.withNotes`, `Reads.withNotes`: parsing does not look at what was noted before it.
* `Parser.isStray_finish`, `Expression.isStray_elaborate`: it does not complain about characters,
  and neither does typing.
* **`strays_are_blanks`**: a line, and the line with blanks in the place of its stray characters.
-/

namespace Reckoner

open Reckoner.Parser

variable {limit : Option Nat} {t : Task} {p p' q : Parser} {e : Expression} {h : Nat}
  {ds : Array Diagnostic} {d : Diagnostic}

/-! ## Parsing with earlier notes -/

namespace Parser

/-- The place if `ds` was noted before everything else. -/
def withNotes (ds : Array Diagnostic) (p : Parser) : Parser :=
  { p with diagnostics := ds ++ p.diagnostics }

theorem report_withNotes (ds : Array Diagnostic) (complaint : Complaint) (p : Parser) :
    (p.withNotes ds).report complaint = (p.report complaint).withNotes ds := by
  by_cases h : p.abandoned = true
  · simp [report, h, show (p.withNotes ds).abandoned = true from h]
  · simp only [report, h, show ¬ (p.withNotes ds).abandoned = true from h]
    simp [withNotes, current]

theorem abandon_withNotes (ds : Array Diagnostic) (n : Nat) (p : Parser) :
    (p.withNotes ds).abandon n = (p.abandon n).withNotes ds := by
  rw [abandon, report_withNotes]
  rfl

theorem expect_withNotes (ds : Array Diagnostic) (kind : TokenKind) (p : Parser) :
    (p.withNotes ds).expect kind = ((p.expect kind).1, (p.expect kind).2.withNotes ds) := by
  rw [expect, report_withNotes, expect]
  change (if p.current.kind = kind then _ else _) = _
  by_cases h : p.current.kind = kind
  · rw [if_pos h, if_pos h]
    rfl
  · rw [if_neg h, if_neg h]
    rfl

end Parser

/-- **What is read does not depend on what was noted before.** -/
theorem Reads.withNotes (ds : Array Diagnostic) (hr : Reads limit t p e h p') :
    Reads limit t (p.withNotes ds) e h (p'.withNotes ds) := by
  induction hr with
  | @shut m n p hn =>
    have hshut := Reads.shut (m := m) (p := p.withNotes ds) hn
    rw [abandon_withNotes] at hshut
    exact hshut
  | @opened m h h' p p' p'' e e' hn _ _ ihfirst ihchain =>
    exact Reads.opened (p := p.withNotes ds) hn ihfirst ihchain
  | @unary m q h p p' e hq _ ih => exact Reads.unary (p := p.withNotes ds) hq ih
  | @parenthesized m h p p' e hq hk _ ih =>
    have hinner := Reads.parenthesized (p := p.withNotes ds) hq hk ih
    rw [expect_withNotes] at hinner
    exact hinner
  | @truth m p hq hk => exact Reads.truth (p := p.withNotes ds) hq hk
  | @number m p hq ho ht hf =>
    have hnumber : Reads limit _ _ _ _ _ := .number (p := p.withNotes ds) hq ho ht hf
    rw [expect_withNotes] at hnumber
    exact hnumber
  | @done m h p e hq => exact Reads.done (p := p.withNotes ds) hq
  | @cut m q n h p e hq hn =>
    have hcut := Reads.cut (p := p.withNotes ds) (e := e) hq hn
    rw [abandon_withNotes] at hcut
    exact hcut
  | @link m q h h₁ h' p p₁ p' e r e' hq hn _ _ ihright ihchain =>
    exact Reads.link (p := p.withNotes ds) hq hn ihright ihchain

theorem Parser.finish_withNotes (ds : Array Diagnostic) (limit : Option Nat) (p : Parser) :
    (p.withNotes ds).finish limit =
      ⟨(p.finish limit).root, (p.finish limit).ending, ds ++ (p.finish limit).diagnostics⟩ := by
  have hread := (((Task.nested 0).isRead limit p).withNotes ds).result_eq
  obtain ⟨hroot, -, hafter⟩ : (nested limit 0 (p.withNotes ds)).expression = _ ∧
      (nested limit 0 (p.withNotes ds)).height = _ ∧
      (nested limit 0 (p.withNotes ds)).after = _ := by
    simpa [Task.result] using hread
  rw [finish, hroot, hafter, expect_withNotes]
  rfl

/-! ## What parsing and typing note -/

theorem Parser.isStray_report {complaint : Complaint}
    (hc : ∀ span, (⟨span, complaint⟩ : Diagnostic).isStray = false)
    (hp : ∀ d ∈ p.diagnostics, d.isStray = false) :
    ∀ d ∈ (p.report complaint).diagnostics, d.isStray = false := by
  unfold report
  split
  · exact hp
  · intro d hd
    rcases Array.mem_push.mp hd with hd | rfl
    · exact hp d hd
    · exact hc _

theorem Parser.Step.isStray {us : List Token} (hs : Step limit p us q)
    (hp : ∀ d ∈ p.diagnostics, d.isStray = false) : ∀ d ∈ q.diagnostics, d.isStray = false := by
  cases hs with
  | level depth => exact hp
  | take hk => exact hp
  | miss hk => exact isStray_report (fun _ => rfl) hp
  | shut hn => exact isStray_report (fun _ => rfl) hp
  | cut hn => exact isStray_report (fun _ => rfl) hp

theorem Parser.Walk.isStray {ts : List Token} (hw : Walk limit p ts q)
    (hp : ∀ d ∈ p.diagnostics, d.isStray = false) : ∀ d ∈ q.diagnostics, d.isStray = false := by
  induction hw with
  | refl => exact hp
  | step _ hs ih => exact hs.isStray ih

theorem Parser.isStray_finish (limit : Option Nat)
    (hp : ∀ d ∈ p.diagnostics, d.isStray = false) :
    ∀ d ∈ (p.finish limit).diagnostics, d.isStray = false := by
  obtain ⟨_, -, hwalk⟩ := ((Task.nested 0).isRead limit p).exists_walk
  have hread : ∀ d ∈ (nested limit 0 p).after.diagnostics, d.isStray = false := hwalk.isStray hp
  rw [finish, expect]
  split
  · exact hread
  · exact isStray_report (fun _ => rfl) hread

theorem Expression.isStray_elaborate (e : Expression) :
    ∀ d ∈ (e.elaborate #[]).2, d.isStray = false := by
  intro d hd
  rw [← Array.mem_toList_iff, notes_elaborate] at hd
  obtain ⟨f, -, hf⟩ := List.mem_filterMap.mp hd
  cases f with
  | literal t => exact absurd hf.symm (Option.some_ne_none d)
  | unary op e =>
    simp only [undefined?] at hf
    split at hf
    · exact absurd hf.symm (Option.some_ne_none d)
    · exact Option.some.inj hf ▸ rfl
  | binary l op r =>
    simp only [undefined?] at hf
    split at hf
    · exact absurd hf.symm (Option.some_ne_none d)
    · exact Option.some.inj hf ▸ rfl
  | parenthesized o e c => exact absurd hf.symm (Option.some_ne_none d)

/-! ## Lines -/

/-- The place before the first token of a line if the lexer noted nothing. -/
def Parser.quiet (line : String) : Parser :=
  { ofString line with diagnostics := #[] }

theorem Parser.ofString_eq_withNotes (line : String) :
    ofString line = (quiet line).withNotes (Lexeme.notes 0 line.toList).toArray := by
  rw [quiet, withNotes, ofString_eq]
  simp

theorem Parser.quiet_cleared (line : String) : quiet (cleared line) = quiet line := by
  rw [quiet, quiet, ofString_eq, ofString_eq, toList_cleared, Lexeme.words_cleared,
    utf8ByteSize_cleared]

theorem filter_isStray_append {noted own : Array Diagnostic}
    (hown : ∀ d ∈ own, d.isStray = false) :
    (noted ++ own).filter (fun d => !d.isStray) = noted.filter (fun d => !d.isStray) ++ own := by
  have hself : own.filter (fun d => !d.isStray) = own :=
    Array.filter_eq_self.mpr fun d hd => by rw [hown d hd]; rfl
  rw [Array.filter_append Array.size_append, hself]

/-- **A stray character is a blank.** Put blanks in the place of every stray character of a line, as
many as it has bytes. Then the line has no stray characters; it is read as the same tree with the
same end, whatever the limit on its levels; and what lexer, parser and typing note about it is what
they note about the line, in the same order, without the complaints about stray characters. -/
theorem strays_are_blanks (line : String) :
    (∀ t ∈ (Lexer.ofString (cleared line)).drain.1, t.kind ≠ .stray) ∧
    (Lexer.ofString (cleared line)).drain.2.diagnostics =
      (Lexer.ofString line).drain.2.diagnostics.filter (fun d => !d.isStray) ∧
    (∀ limit,
      (ParsedLine.ofString (cleared line) limit).root = (ParsedLine.ofString line limit).root ∧
      (ParsedLine.ofString (cleared line) limit).ending = (ParsedLine.ofString line limit).ending ∧
      (ParsedLine.ofString (cleared line) limit).diagnostics =
        (ParsedLine.ofString line limit).diagnostics.filter (fun d => !d.isStray)) ∧
    (Analysis.ofString (cleared line)).parsed.root = (Analysis.ofString line).parsed.root ∧
    (Analysis.ofString (cleared line)).parsed.ending = (Analysis.ofString line).parsed.ending ∧
    (Analysis.ofString (cleared line)).diagnostics =
      (Analysis.ofString line).diagnostics.filter (fun d => !d.isStray) := by
  have hnotes : (Lexeme.notes 0 (cleared line).toList).toArray =
      (Lexeme.notes 0 line.toList).toArray.filter (fun d => !d.isStray) := by
    rw [toList_cleared, Lexeme.notes_cleared, List.filter_toArray]
  have hparsed (limit : Option Nat) : ParsedLine.ofString (cleared line) limit =
      ⟨(ParsedLine.ofString line limit).root, (ParsedLine.ofString line limit).ending,
        (ParsedLine.ofString line limit).diagnostics.filter fun d => !d.isStray⟩ := by
    -- the notes that are made while the pieces are read have no strays among them
    have hown := isStray_finish (p := quiet line) limit fun d hd =>
      absurd hd (Array.not_mem_empty d)
    rw [ParsedLine.ofString, ParsedLine.ofString, ofString_eq_withNotes, ofString_eq_withNotes,
      quiet_cleared, finish_withNotes, finish_withNotes, hnotes, filter_isStray_append hown]
  refine ⟨?kinds, ?lexer, fun limit => ?parser, ?root, ?ending, ?typing⟩
  case kinds =>
    intro t ht
    rw [← Array.mem_toList_iff, Lexer.toList_drain] at ht
    rcases List.mem_append.mp ht with ht | ht
    · obtain ⟨y, hy, rfl⟩ := List.mem_map.mp ht
      have hmem := Lexeme.mem_of_mem_placed hy
      rw [toList_cleared] at hmem
      exact Lexeme.kind_ne_stray_of_cleared hmem
    · rw [List.mem_singleton.mp ht]
      exact TokenKind.noConfusion
  case lexer => rw [Lexer.diagnostics_drain, Lexer.diagnostics_drain, hnotes]
  case parser => rw [hparsed]; exact ⟨rfl, rfl, rfl⟩
  case root => rw [Analysis.ofString, hparsed]; rfl
  case ending => rw [Analysis.ofString, hparsed]; rfl
  case typing =>
    have hown := (ParsedLine.ofString line).root.isStray_elaborate
    rw [Analysis.diagnostics_eq, Analysis.diagnostics_eq, hparsed, filter_isStray_append hown]

example : cleared "7 €&+8" = "7     +8" := by
  decide +kernel

end Reckoner
