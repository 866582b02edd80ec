import Reckoner.Proofs.Expression.Relocation
import Reckoner.Proofs.Token.Blanks

/-!
# Blanks between tokens

What blanks are put between the tokens of a line does not matter: the same is read, noted and
computed. What stands behind the blanks stands further on, and so do its placeholders and notes.

* `Parser.ofString_insert`: the tokens that are parsed, and the notes of the lexer.
* **`blanks_between_tokens`**: what a line comes to into which blanks are put.
-/

namespace Reckoner

open Lexeme

/-- **Blanks between two pieces push on what is parsed** and what the lexer notes. -/
theorem Parser.ofString_insert {before after w : String}
    (hcut : cut (before.toList ++ after.toList) = cut before.toList ++ cut after.toList)
    (hw : ∀ c ∈ w.toList, Text.isBlank c = true) : ofString (before ++ w ++ after) =
      (ofString (before ++ after)).relocate (pushed before.utf8ByteSize w.utf8ByteSize) := by
  have hstop : (before ++ w ++ after).utf8ByteSize =
      pushed before.utf8ByteSize w.utf8ByteSize (before ++ after).utf8ByteSize := by
    rw [String.utf8ByteSize_append, String.utf8ByteSize_append, String.utf8ByteSize_append, pushed,
      if_pos (Nat.le_add_right _ _), Nat.add_right_comm]
  have hwords := words_insert hcut hw
  have hnotes := notes_insert hcut hw
  rw [bytes_toList, bytes_toList] at hwords hnotes
  rw [ofString_eq, ofString_eq, relocate, hstop]
  simp [hwords, hnotes]

/-- **Blanks between tokens do not matter.** Put in where a token begins or at the end of a line, they
leave what is read as it is, whatever the limit on its levels, and so its types, its value or fault
and its notes. Only positions change: those at the place of the blanks or behind it grow by their
bytes, in the tokens and placeholders of the tree, in the spans of the notes and in the messages
about stray characters. -/
theorem blanks_between_tokens (line : String) :
    (0 ∈ boundaries line ∧ line.utf8ByteSize ∈ boundaries line) ∧
    ∀ p ∈ boundaries line, ∀ w : String, (∀ c ∈ w.toList, Text.isBlank c = true) →
      ∃ before after, line = before ++ after ∧ before.utf8ByteSize = p ∧
        (∀ limit, ParsedLine.ofString (before ++ w ++ after) limit =
          (ParsedLine.ofString line limit).relocate (pushed p w.utf8ByteSize)) ∧
        Analysis.ofString (before ++ w ++ after) =
          (Analysis.ofString line).relocate (pushed p w.utf8ByteSize) ∧
        evaluate (before ++ w ++ after) =
          (evaluate line).map (Answer.relocate (pushed p w.utf8ByteSize)) ∧
        ∀ d ∈ (Analysis.ofString line).diagnostics,
          (∀ c, d.complaint = .strayCharacter c →
            (d.relocate (pushed p w.utf8ByteSize)).message =
              "bad character input: '" ++ String.singleton c ++ "' at position " ++
                Decimal.natural (pushed p w.utf8ByteSize d.span.start)) ∧
          ((∀ c, d.complaint ≠ .strayCharacter c) →
            (d.relocate (pushed p w.utf8ByteSize)).message = d.message) := by
  refine ⟨mem_boundaries line, fun p hp w hw => ?_⟩
  obtain ⟨before, after, rfl, rfl, hcut⟩ := exists_cut_append hp
  have hparsed (limit : Option Nat) : ParsedLine.ofString (before ++ w ++ after) limit =
      (ParsedLine.ofString (before ++ after) limit).relocate
        (pushed before.utf8ByteSize w.utf8ByteSize) := by
    rw [ParsedLine.ofString, Parser.ofString_insert hcut hw, Parser.finish_relocate]
    rfl
  have hanalysis := Analysis.ofString_relocate (hparsed (some nestingLimit))
  refine ⟨before, after, rfl, rfl, hparsed, hanalysis, ?_, fun d _ => d.message_relocate _⟩
  rw [evaluate, hanalysis, Analysis.evaluate_relocate]
  rfl

/-- A blank of three bytes in front of the sign in `1 € + true`. -/
theorem blanks_between_tokens_stray : ∃ before after,
    "1 € + true" = before ++ after ∧ before.utf8ByteSize = 2 ∧
      evaluate (before ++ "\u2003" ++ after) = .ok (.diagnostics
        #[⟨⟨5, 3⟩, .strayCharacter '€'⟩, ⟨⟨9, 1⟩, .undefinedBinary "+" .integer .boolean⟩]) := by
  have hblank : ∀ c ∈ "\u2003".toList, Text.isBlank c = true := List.forall_mem_singleton.mpr rfl
  have hd : (Analysis.ofString "1 € + true").diagnostics =
      #[⟨⟨2, 3⟩, .strayCharacter '€'⟩, ⟨⟨6, 1⟩, .undefinedBinary "+" .integer .boolean⟩] := by
    decide +kernel
  obtain ⟨-, hinsert⟩ := blanks_between_tokens "1 € + true"
  obtain ⟨before, after, hline, hplace, -, -, hvalue, -⟩ :=
    hinsert 2 (by decide +kernel) "\u2003" hblank
  refine ⟨before, after, hline, hplace, ?_⟩
  rw [hvalue, evaluate, Analysis.evaluate, hd, show "\u2003".utf8ByteSize = 3 by decide]
  simp [Except.map, Answer.relocate, Diagnostic.relocate, pushed]

end Reckoner
