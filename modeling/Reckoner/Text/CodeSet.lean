/-!
# Sets of code points

A property of characters is given by the ranges of code points that have it, so that the data of a
standard stays a table and the test is one scan.

* `CodeSet.covers_iff`: on ranges in increasing order, the scan decides membership in some range.
* `Text.isBlank`: the White_Space property; `Text.trim`: a text without the blanks at its two ends.
-/

namespace Reckoner

/-- Closed ranges of code points, `(first, last)` each, in increasing order. -/
abbrev CodeSet := List (Nat × Nat)

namespace CodeSet

/-- The scan stops at the first range that does not end before `n`. -/
def covers : CodeSet → Nat → Bool
  | [], _ => false
  | (first, last) :: later, n => if n ≤ last then decide (first ≤ n) else covers later n

/-- No range is empty, none starts below `low`, and each starts above the end of the one before. -/
def increasingFrom (low : Nat) : CodeSet → Bool
  | [] => true
  | (first, last) :: later =>
    decide (low ≤ first) && decide (first ≤ last) && increasingFrom (last + 1) later

theorem le_of_increasingFrom {s : CodeSet} {low : Nat} (hs : increasingFrom low s = true) :
    ∀ r ∈ s, low ≤ r.1 := by
  induction s generalizing low with
  | nil => simp
  | cons r later ih =>
    obtain ⟨first, last⟩ := r
    simp only [increasingFrom, Bool.and_eq_true, decide_eq_true_eq] at hs
    obtain ⟨⟨hlow, hle⟩, hrest⟩ := hs
    intro r hr
    rcases List.mem_cons.mp hr with rfl | hr
    · exact hlow
    · have := ih hrest r hr
      omega

theorem covers_iff {s : CodeSet} {low : Nat} (hs : increasingFrom low s = true) (n : Nat) :
    covers s n = true ↔ ∃ r ∈ s, r.1 ≤ n ∧ n ≤ r.2 := by
  induction s generalizing low with
  | nil => simp [covers]
  | cons r later ih =>
    obtain ⟨first, last⟩ := r
    simp only [increasingFrom, Bool.and_eq_true, decide_eq_true_eq] at hs
    obtain ⟨_, hrest⟩ := hs
    unfold covers
    split
    · rename_i hle
      simp only [decide_eq_true_eq, List.mem_cons, exists_eq_or_imp]
      refine ⟨fun h => Or.inl ⟨h, hle⟩, ?_⟩
      rintro (h | ⟨r, hr, h, _⟩)
      · exact h.1
      · have := le_of_increasingFrom hrest r hr
        omega
    · rename_i hgt
      rw [ih hrest]
      simp only [List.mem_cons, exists_eq_or_imp]
      refine ⟨Or.inr, ?_⟩
      rintro (h | h)
      · exact absurd h.2 hgt
      · exact h

end CodeSet

namespace Text

/-- The code points with the property White_Space. -/
def blanks : CodeSet :=
  [ (0x9, 0xd), (0x20, 0x20), (0x85, 0x85), (0xa0, 0xa0), (0x1680, 0x1680), (0x2000, 0x200a),
    (0x2028, 0x2029), (0x202f, 0x202f), (0x205f, 0x205f), (0x3000, 0x3000) ]

/-- Whether a character is white space. -/
def isBlank (c : Char) : Bool :=
  CodeSet.covers blanks c.toNat

theorem blanks_increasing : CodeSet.increasingFrom 0 blanks = true := by
  decide +kernel

/-- The text without the blanks at its two ends. -/
def trim (text : List Char) : List Char :=
  ((text.dropWhile isBlank).reverse.dropWhile isBlank).reverse

end Text

end Reckoner
