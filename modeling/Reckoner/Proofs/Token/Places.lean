import Reckoner.Proofs.Token.Segmentation

/-!
# Places of tokens

A token stands on its line where it says that it does, and in front of those that come later.

* `tokensOf`: the tokens of a line that form expressions, and the end of the line;
  `tokensOf_eq`: they are what is parsed.
* `Token.StandsOn`: the token is found on the line at its position; `standsOn_of_mem`.
* `Parser.Ordered`: tokens that come later stand further on; `ordered_ofString`.
-/

namespace Reckoner

namespace Lexeme

variable {position : Nat} {xs : List Lexeme} {y : Lexeme × Nat}

theorem exists_eq_append (hy : y ∈ placed position xs) : ∃ before after,
    xs = before ++ y.1 :: after ∧ y.2 = position + bytes (before.flatMap text) := by
  induction xs generalizing position with
  | nil => simp [placed] at hy
  | cons x xs ih =>
    rcases List.mem_cons.mp hy with rfl | hy
    · exact ⟨[], xs, rfl, by simp [bytes]⟩
    · obtain ⟨before, after, rfl, hplace⟩ := ih hy
      refine ⟨x :: before, after, rfl, ?_⟩
      rw [hplace, List.flatMap_cons, bytes_append, Nat.add_assoc]

theorem exists_flatMap_text_eq (hy : y ∈ placed position xs) : ∃ before after,
    xs.flatMap text = before ++ y.1.text ++ after ∧ y.2 = position + bytes before := by
  obtain ⟨before, after, rfl, hplace⟩ := exists_eq_append hy
  exact ⟨before.flatMap text, after.flatMap text, by simp, hplace⟩

theorem pairwise_placed (position : Nat) (xs : List Lexeme) :
    (placed position xs).Pairwise fun x y => x.2 + bytes x.1.text ≤ y.2 := by
  induction xs generalizing position with
  | nil => exact .nil
  | cons x xs ih =>
    refine List.pairwise_cons.mpr ⟨fun y hy => ?_, ih _⟩
    obtain ⟨before, -, -, hplace⟩ := exists_flatMap_text_eq hy
    rw [hplace]
    exact Nat.le_add_right _ _

theorem bytes_pos {s : List Char} (h : s ≠ []) : 0 < bytes s := by
  obtain ⟨c, cs, rfl⟩ := List.exists_cons_of_ne_nil h
  have hsize := bytes_append [c] cs
  have hchar : bytes [c] = c.utf8Size := by simp [bytes]
  have := c.utf8Size_pos
  rw [List.singleton_append] at hsize
  omega

end Lexeme

open Lexeme

/-- The tokens of a line that form expressions, and the end of the line. -/
def tokensOf (line : String) : List Token :=
  (Lexer.ofString line).drain.1.toList.filter fun t => !t.kind.isSeparator

/-- The characters of the token are found on the line at its position. -/
def Token.StandsOn (line : String) (t : Token) : Prop :=
  ∃ before after, line = before ++ t.literal ++ after ∧ t.position = before.utf8ByteSize

theorem Lexeme.standsOn_token {line : String} {y : Lexeme × Nat}
    (hy : y ∈ placed 0 (cut line.toList)) : (y.1.token y.2).StandsOn line := by
  obtain ⟨before, after, htext, hplace⟩ := exists_flatMap_text_eq hy
  rw [flatMap_text_cut] at htext
  refine ⟨String.ofList before, String.ofList after, String.toList_inj.mp ?_, ?_⟩
  · simpa [token] using htext
  · exact hplace.trans (Nat.zero_add _)

namespace Parser

/-- The tokens from a place on, and the end of the line. -/
def tokens (p : Parser) : List Token :=
  p.rest ++ [.ending p.stop]

theorem exists_tokens_eq (p : Parser) : ∃ later, p.tokens = p.current :: later := by
  cases hrest : p.rest with
  | nil => exact ⟨[], by simp [tokens, current, hrest]⟩
  | cons t ts => exact ⟨ts ++ [.ending p.stop], by simp [tokens, current, hrest]⟩

variable {line : String} {t : Token}

theorem stop_ofString (line : String) : (ofString line).stop = line.utf8ByteSize := by
  rw [ofString_eq]

theorem exists_piece (ht : t ∈ (ofString line).rest) :
    ∃ y ∈ placed 0 (cut line.toList), t = y.1.token y.2 := by
  rw [ofString_eq, words] at ht
  obtain ⟨y, hy, rfl⟩ := List.mem_map.mp ht
  exact ⟨y, (List.mem_filter.mp hy).1, rfl⟩

/-- **A token is found on the line at its position.** -/
theorem standsOn_of_mem (ht : t ∈ (ofString line).rest) : t.StandsOn line := by
  obtain ⟨y, hy, rfl⟩ := exists_piece ht
  exact standsOn_token hy

theorem literal_ne_of_mem (ht : t ∈ (ofString line).rest) : t.literal ≠ "" := by
  obtain ⟨y, hy, rfl⟩ := exists_piece ht
  have := (inClass_of_mem_cut (mem_of_mem_placed hy)).text_ne_nil
  simpa [token] using this

theorem length_pos_of_mem (ht : t ∈ (ofString line).rest) : 0 < t.span.length :=
  Nat.pos_of_ne_zero fun h => literal_ne_of_mem ht (String.utf8ByteSize_eq_zero_iff.mp h)

theorem position_lt_of_mem (ht : t ∈ (ofString line).rest) : t.position < line.utf8ByteSize := by
  obtain ⟨before, after, hline, hplace⟩ := standsOn_of_mem ht
  have hsize := congrArg String.utf8ByteSize hline
  rw [String.utf8ByteSize_append, String.utf8ByteSize_append] at hsize
  have hpos : 0 < t.literal.utf8ByteSize := length_pos_of_mem ht
  omega

/-- Tokens that come later stand further on. -/
def Ordered (p : Parser) : Prop :=
  p.tokens.Pairwise fun s t => s.position ≤ t.position

theorem pairwise_ofString (line : String) :
    (ofString line).rest.Pairwise fun s t => s.span.stop ≤ t.position := by
  rw [ofString_eq, words, List.pairwise_map]
  exact (pairwise_placed 0 _).filter _

theorem pairwise_position (line : String) :
    (ofString line).rest.Pairwise fun s t => s.position < t.position := by
  refine (pairwise_ofString line).imp_of_mem fun hs _ hle => ?_
  exact (Nat.lt_add_of_pos_right (length_pos_of_mem hs)).trans_le hle

theorem ordered_ofString (line : String) : (ofString line).Ordered := by
  rw [Ordered, tokens, List.pairwise_append]
  refine ⟨?_, List.pairwise_singleton _ _, fun s hs t ht => ?_⟩
  · exact (pairwise_position line).imp Nat.le_of_lt
  · rw [List.mem_singleton.mp ht, stop_ofString]
    exact (position_lt_of_mem hs).le

theorem Ordered.le_of_mem {p : Parser} (h : p.Ordered) (ht : t ∈ p.tokens) :
    p.current.position ≤ t.position := by
  obtain ⟨later, heq⟩ := p.exists_tokens_eq
  rw [Ordered, heq] at h
  rw [heq] at ht
  rcases List.mem_cons.mp ht with rfl | ht
  · exact Nat.le_refl _
  · exact (List.pairwise_cons.mp h).1 t ht

end Parser

theorem tokensOf_eq (line : String) : tokensOf line = (Parser.ofString line).tokens := by
  rw [tokensOf, Lexer.toList_drain, Parser.ofString_eq, Parser.tokens, words, List.filter_append,
    List.filter_map]
  rfl

end Reckoner
