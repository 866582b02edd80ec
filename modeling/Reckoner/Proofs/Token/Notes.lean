import Reckoner.Proofs.Token.Places

/-!
# Notes about pieces

What the lexer notes about a line points at pieces of it, one note for a piece and in their order.

* `Span.Covers`: the span is where a text stands on the line.
* `Diagnostic.IsAboutPiece`: what the lexer says about a piece; `Lexeme.isAboutPiece_of_mem_notes`.
* `Lexeme.pairwise_notes`: the notes stand behind each other and do not overlap.
-/

namespace Reckoner

open Lexeme

/-- The span is where `text` stands on the line. -/
def Span.Covers (line text : String) (s : Span) : Prop :=
  ∃ before after, line = before ++ text ++ after ∧ s = ⟨before.utf8ByteSize, text.utf8ByteSize⟩

theorem Token.StandsOn.covers {line : String} {t : Token} (h : t.StandsOn line) :
    t.span.Covers line t.literal := by
  obtain ⟨before, after, hline, hplace⟩ := h
  exact ⟨before, after, hline, by rw [Token.span, hplace]⟩

/-- What the lexer says about a piece of the line: it names the character at its span, and where
that is, or quotes the digits there. -/
inductive Diagnostic.IsAboutPiece (line : String) (d : Diagnostic) : Prop
  | character {c : Char} (hspan : d.span.Covers line (String.singleton c))
      (hmessage : d.message = "bad character input: '" ++ String.singleton c ++ "' at position " ++
        Decimal.natural d.span.start)
  | number {digits : String} (hne : digits ≠ "") (hspan : d.span.Covers line digits)
      (hmessage : d.message = "the number " ++ digits ++ " can't be represented by a 32-bit integer")

namespace Lexeme

variable {y : Lexeme × Nat} {d : Diagnostic} {line : String}

theorem exists_piece_of_mem_notes (hd : d ∈ notes 0 line.toList) :
    ∃ y ∈ placed 0 (cut line.toList), y.1.InClass ∧ y.1.diagnostic? y.2 = some d := by
  obtain ⟨y, hy, hnote⟩ := List.mem_flatMap.mp hd
  exact ⟨y, hy, inClass_of_mem_cut (mem_of_mem_placed hy), Option.mem_toList.mp hnote⟩

/-- **What is noted about a piece says what stands there.** -/
theorem isAboutPiece_of_mem_notes (hd : d ∈ notes 0 line.toList) : d.IsAboutPiece line := by
  obtain ⟨y, hy, hclass, hnote⟩ := exists_piece_of_mem_notes hd
  have hcovers := (standsOn_token hy).covers
  rw [← hclass.span_eq hnote] at hcovers
  rcases hclass.diagnostic?_cases hnote with rfl | ⟨c, htext, rfl⟩
  · refine .number (fun h => hclass.text_ne_nil ?_) hcovers rfl
    simpa [token] using h
  · have hliteral : (y.1.token y.2).literal = String.singleton c := by simp [token, htext]
    rw [hliteral] at hcovers
    exact .character hcovers rfl

theorem pairwise_notes (line : String) :
    (notes 0 line.toList).Pairwise fun d d' =>
      d.span.start < d'.span.start ∧ d.span.stop ≤ d'.span.start := by
  refine List.pairwise_flatMap.mpr ⟨fun y _ => ?_, ?_⟩
  · cases y.1.diagnostic? y.2 with
    | none => exact .nil
    | some d => exact List.pairwise_singleton _ _
  · refine (pairwise_placed 0 (cut line.toList)).imp_of_mem fun hx hy hle d hd d' hd' => ?_
    have hxclass := inClass_of_mem_cut (mem_of_mem_placed hx)
    have hyclass := inClass_of_mem_cut (mem_of_mem_placed hy)
    rw [hxclass.span_eq (Option.mem_toList.mp hd), hyclass.span_eq (Option.mem_toList.mp hd')]
    have := bytes_pos hxclass.text_ne_nil
    exact ⟨(Nat.lt_add_of_pos_right this).trans_le hle, hle⟩

end Lexeme

namespace Diagnostic.IsAboutPiece

variable {line : String} {d : Diagnostic}

theorem exists_covers (h : d.IsAboutPiece line) : ∃ text, d.span.Covers line text := by
  cases h with
  | character hspan _ => exact ⟨_, hspan⟩
  | number _ hspan _ => exact ⟨_, hspan⟩

theorem length_pos (h : d.IsAboutPiece line) : 0 < d.span.length := by
  cases h with
  | @character c hspan _ =>
    obtain ⟨before, after, -, h⟩ := hspan
    rw [h]
    simpa using c.utf8Size_pos
  | @number digits hne hspan _ =>
    obtain ⟨before, after, -, h⟩ := hspan
    rw [h]
    exact Nat.pos_of_ne_zero fun hsize => hne (String.utf8ByteSize_eq_zero_iff.mp hsize)

end Diagnostic.IsAboutPiece

end Reckoner
