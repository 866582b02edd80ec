import Reckoner.CommandLine
import Reckoner.Proofs.Expression.Notes
import Reckoner.Proofs.Typing.Operators

/-!
# Notes stage by stage

Lexer, parser and typing note what is wrong with a line, one behind the other, and each keeps what
was noted before. So a command that goes further does not end better, and every note says in its own
way at which characters of the line it points.

* `Analysis.exists_notes`: what typing adds to the notes about a line.
* `Command.code_exitOf`, `code_answer`: a command ends with 65 exactly if something was noted.
* **`diagnostics_by_stage`**: what is noted about a line, and where.
-/

namespace Reckoner

variable {line : String}

/-- **What typing adds is about different operators of the line**, and quotes them. -/
theorem Analysis.exists_notes (line : String) : ∃ typed,
    (ofString line).diagnostics.toList = (ParsedLine.ofString line).diagnostics.toList ++ typed ∧
    typed.Pairwise (fun d d' => d.span ≠ d'.span) ∧
    ∀ d ∈ typed, ∃ op ∈ tokensOf line, op.kind ∈ unaryKinds ++ binaryKinds ∧ op.literal ≠ "" ∧
      op.span.Covers line op.literal ∧ d.IsAboutOperator op := by
  refine ⟨((ParsedLine.ofString line).root.elaborate #[]).2.toList, ?_,
    ParsedLine.pairwise_elaborate line _, fun d hd => ?_⟩
  · rw [diagnostics_eq, Array.toList_append]
  · obtain ⟨op, hop, habout⟩ := Expression.exists_operator hd
    obtain ⟨hmem, hk⟩ := ParsedLine.mem_operators hop
    refine ⟨op, ?_, hk, Parser.literal_ne_of_mem hmem, (Parser.standsOn_of_mem hmem).covers, habout⟩
    rw [tokensOf_eq]
    exact List.mem_append_left _ hmem

/-! ## How commands end -/

theorem Command.code_exitOf (ds : Array Diagnostic) : (exitOf ds).code = 65 ↔ ds.toList ≠ [] := by
  rw [ne_eq, Array.toList_eq_nil_iff, ← Array.isEmpty_iff, exitOf]
  cases ds.isEmpty <;> decide

theorem code_answer (showTree : Bool) (line : String) :
    (answer showTree line).exit.code = 65 ↔ (Analysis.ofString line).diagnostics.toList ≠ [] := by
  rw [ne_eq, Array.toList_eq_nil_iff, ← Array.isEmpty_iff, answer, Analysis.evaluate]
  cases (Analysis.ofString line).diagnostics.isEmpty with
  | true => cases (Analysis.ofString line).typed.evaluate <;> simp [Except.map, Exit.code]
  | false => simp [Exit.code]

/-! ## All notes about a line -/

/-- **What is noted about a line, and where.** Lexer, parser and typing add to what was noted before
them. So if listing the tokens ends with 65, parsing does, and if parsing does, evaluating does. Each
span is where some text stands on the line. The spans of the lexer are not empty, stand behind each
other and do not overlap, and its messages name or quote what stands there. The spans of the parser
are those of tokens, none of them in front of an earlier one; that of the end of the line is empty
and stands behind all its bytes. The spans of typing are those of different operators, which its
messages quote. -/
theorem diagnostics_by_stage (line : String) : ∃ lexed parsed typed : List Diagnostic,
    (Lexer.ofString line).drain.2.diagnostics.toList = lexed ∧
    (ParsedLine.ofString line).diagnostics.toList = lexed ++ parsed ∧
    (Analysis.ofString line).diagnostics.toList = lexed ++ parsed ++ typed ∧
    (∀ input, ((Command.tokenize line).run input).exit.code = 65 →
      ((Command.parse line).run input).exit.code = 65) ∧
    (∀ input, ((Command.parse line).run input).exit.code = 65 →
      ((Command.evaluate line).run input).exit.code = 65) ∧
    (∀ d ∈ lexed ++ parsed ++ typed, ∃ text, d.span.Covers line text) ∧
    lexed.Pairwise (fun d d' => d.span.start < d'.span.start ∧ d.span.stop ≤ d'.span.start) ∧
    (∀ d ∈ lexed, 0 < d.span.length ∧ d.IsAboutPiece line) ∧
    parsed.Pairwise (fun d d' => d.span.start ≤ d'.span.start) ∧
    (∀ d ∈ parsed, ∃ t ∈ tokensOf line, d.span = t.span ∧
      (t.kind = .ending → t.span = ⟨line.utf8ByteSize, 0⟩)) ∧
    typed.Pairwise (fun d d' => d.span ≠ d'.span) ∧
    ∀ d ∈ typed, ∃ op ∈ tokensOf line, op.kind ∈ unaryKinds ++ binaryKinds ∧ op.literal ≠ "" ∧
      op.span.Covers line op.literal ∧ d.IsAboutOperator op := by
  have hlexed : (Parser.ofString line).diagnostics.toList = Lexeme.notes 0 line.toList := by
    rw [Parser.ofString_eq]
  obtain ⟨parsed, hparsed, hordered, hat⟩ := ParsedLine.exists_notes line (some nestingLimit)
  obtain ⟨typed, htyped, hapart, habout⟩ := Analysis.exists_notes line
  refine ⟨Lexeme.notes 0 line.toList, parsed, typed, hlexed, by rw [hparsed, hlexed],
    by rw [htyped, hparsed, hlexed], fun input => ?tokenize, fun input => ?parse, fun d hd => ?covers,
    Lexeme.pairwise_notes line, fun d hd => ?lexed, hordered, fun d hd => ?parsed, hapart, habout⟩
  case tokenize =>
    rw [Command.run, Command.run, Command.code_exitOf, Command.code_exitOf, hparsed]
    exact fun hnoted => List.append_ne_nil_of_left_ne_nil hnoted parsed
  case parse =>
    rw [Command.run, Command.run, Command.code_exitOf, code_answer, htyped]
    exact fun hnoted => List.append_ne_nil_of_left_ne_nil hnoted typed
  case covers =>
    rcases List.mem_append.mp hd with hd | hd
    · rcases List.mem_append.mp hd with hd | hd
      · exact (Lexeme.isAboutPiece_of_mem_notes hd).exists_covers
      · obtain ⟨t, ht, hspan⟩ := hat d hd
        exact ⟨t.literal, hspan ▸ (covers_of_mem_tokensOf ht).1⟩
    · obtain ⟨op, -, -, -, hcovers, hop⟩ := habout d hd
      exact ⟨op.literal, hop.span_eq ▸ hcovers⟩
  case lexed =>
    have hpiece := Lexeme.isAboutPiece_of_mem_notes hd
    exact ⟨hpiece.length_pos, hpiece⟩
  case parsed =>
    obtain ⟨t, ht, hspan⟩ := hat d hd
    exact ⟨t, ht, hspan, (covers_of_mem_tokensOf ht).2⟩

/-- A sign that is no character of expressions, a number with zeros in front, a parenthesis that is
left open and a sum that has no type. -/
theorem diagnostics_by_stage_mixed :
    ((Command.parse "€ 007 + (true").run []).exit.code = 65 ∧
      ((Command.evaluate "€ 007 + (true").run []).exit.code = 65 ∧
      (∀ d ∈ (Lexer.ofString "€ 007 + (true").drain.2.diagnostics.toList,
        d.IsAboutPiece "€ 007 + (true") ∧
      ∀ d ∈ (Analysis.ofString "€ 007 + (true").diagnostics.toList,
        ∃ text, d.span.Covers "€ 007 + (true" text := by
  obtain ⟨lexed, parsed, typed, hlexed, -, hall, htokenize, hparse, hcovers, -, hpiece, -⟩ :=
    diagnostics_by_stage "€ 007 + (true"
  have hcode := htokenize [] (by decide +kernel)
  rw [hlexed, hall]
  exact ⟨hcode, hparse [] hcode, fun d hd => (hpiece d hd).2, hcovers⟩

/-- The notes about that line: two of the lexer, one of the parser and one of typing. -/
example : (Analysis.ofString "€ 007 + (true").diagnostics =
    #[⟨⟨0, 3⟩, .strayCharacter '€'⟩, ⟨⟨4, 3⟩, .invalidNumber "007"⟩,
      ⟨⟨15, 0⟩, .unexpectedToken .ending .closeParen⟩,
      ⟨⟨8, 1⟩, .undefinedBinary "+" .integer .boolean⟩] := by
  decide +kernel

end Reckoner
