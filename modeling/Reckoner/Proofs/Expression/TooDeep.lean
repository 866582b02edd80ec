import Reckoner.Proofs.Expression.Language
import Reckoner.Proofs.Expression.Limit

/-!
# Lines that are too deep

A line is given up for its levels exactly if the tree that is read without the limit does not fit. A
tree that is not higher than the limit fits, so nothing is given up needlessly; but a tree that fits
may be nearly twice as high.

* `tooDeep_iff`: which lines are given up.
* **`limit_transparent`**: lines that are not given up are read as if there were no limit, and of the
  others a part is.
* **`height_lt_twice_limit`**: how high the tree of a line is that is not given up.
* `bracketedSum`: lines that are higher than the limit and are not given up; `height_bracketedSum`.
-/

namespace Reckoner

open Lexeme Token Expression

variable {n d k j : Nat} {line : String}

/-! ## Which lines are given up -/

theorem Lexeme.complaint_ne_of_mem_notes {position : Nat} {s : List Char} {x : Diagnostic}
    (hx : x ∈ notes position s) (n : Nat) : x.complaint ≠ .nestedTooDeep n := by
  obtain ⟨y, -, hy⟩ := List.mem_flatMap.mp hx
  have hx := Option.mem_toList.mp hy
  unfold diagnostic? at hx
  grind [Diagnostic.strayCharacter]

theorem ParsedLine.tooDeep_of_mem {l : ParsedLine} {x : Diagnostic} (hx : x ∈ l.diagnostics.toList)
    (hn : x.complaint = .nestedTooDeep n) : l.tooDeep = true := by
  cases hdeep : l.tooDeep with
  | true => rfl
  | false => exact absurd hn (complaint_ne_of_tooDeep hdeep (Array.mem_toList_iff.mp hx) n)

theorem ParsedLine.tooDeep_none (line : String) : (ofString line none).tooDeep = false := by
  refine Array.any_eq_false'.mpr fun x hx => ?_
  obtain ⟨more, hd, hmore⟩ := (Parser.ofString line).exists_notes_finish
  have hlexer : (Parser.ofString line).diagnostics.toList = notes 0 line.toList := by
    rw [Parser.ofString_eq]
  have hmem := Array.mem_toList_iff.mpr hx
  rw [show (ofString line none).diagnostics.toList = _ from hd, hlexer] at hmem
  rcases List.mem_append.mp hmem with hmem | hmem
  · have hne := complaint_ne_of_mem_notes hmem
    cases hc : x.complaint with
    | nestedTooDeep n => exact absurd hc (hne n)
    | _ => exact Bool.false_ne_true
  · obtain ⟨actual, expected, hc⟩ := hmore x hmem
    rw [hc]
    exact Bool.false_ne_true

/-- **A line is given up exactly if its tree does not fit.** -/
theorem tooDeep_iff (line : String) (n : Nat) :
    (ParsedLine.ofString line (some n)).tooDeep = true ↔
      ¬ (ParsedLine.ofString line none).root.Fits n 0 := by
  constructor
  · intro hdeep hf
    have hsame : ParsedLine.ofString line (some n) = ParsedLine.ofString line none :=
      Parser.finish_of_fits rfl hf
    rw [hsame, ParsedLine.tooDeep_none] at hdeep
    exact Bool.false_ne_true hdeep
  · intro hf
    obtain ⟨-, before, after, span, hd, -⟩ :=
      Parser.finish_of_not_fits (p := Parser.ofString line) rfl hf
    refine ParsedLine.tooDeep_of_mem (x := ⟨span, .nestedTooDeep n⟩) ?_ rfl
    rw [ParsedLine.ofString, hd]
    exact List.mem_append_right _ (List.mem_append_right _ (List.mem_singleton.mpr rfl))

theorem fits_of_tooDeep (h : (ParsedLine.ofString line (some n)).tooDeep = false) :
    (ParsedLine.ofString line none).root.Fits n 0 := by
  refine Classical.byContradiction fun hf => ?_
  rw [(tooDeep_iff line n).mpr hf] at h
  exact absurd h nofun

theorem ParsedLine.ofString_eq (h : (ofString line (some n)).tooDeep = false) :
    ofString line (some n) = ofString line none :=
  Parser.finish_of_fits rfl (fits_of_tooDeep h)

/-- What is read of a line that is given up: a part of its tree, and behind the notes on this part the
note that the line was given up. -/
theorem ParsedLine.cutFrom_of_tooDeep (h : (ofString line (some n)).tooDeep = true) :
    (∃ lost, CutFrom n 0 lost (ofString line (some n)).root (ofString line none).root) ∧
    ∃ before span,
      (ofString line (some n)).diagnostics.toList = before ++ [⟨span, .nestedTooDeep n⟩] ∧
      before <+: (ofString line none).diagnostics.toList := by
  obtain ⟨hcut, before, after, span, hd, hfree⟩ :=
    Parser.finish_of_not_fits (p := Parser.ofString line) rfl ((tooDeep_iff line n).mp h)
  refine ⟨hcut, (Parser.ofString line).diagnostics.toList ++ before, span, ?_, ?_⟩
  · rw [List.append_assoc]
    exact hd
  · rw [show (ofString line none).diagnostics.toList = _ from hfree, ← List.append_assoc]
    exact List.prefix_append _ _

/-! ## Trees that are written out -/

/-- A tree that is read from the list of its leaves if nothing limits it. -/
structure Expression.Writable (e : Expression) : Prop where
  shaped : e.Shaped 0
  proper : e.Proper
  genuine : ∀ t ∈ e.leaves, t.Genuine

theorem Expression.Writable.exists_ofString_eq {e : Expression} (h : e.Writable) :
    ∃ e' : Expression, e'.map unplaced = e.map unplaced ∧
      ParsedLine.ofString (spelled e.leaves) none =
        ⟨e', .ending (spelled e.leaves).utf8ByteSize, #[]⟩ := by
  obtain ⟨hwords, hnotes⟩ := words_spelled_leaves h.proper h.genuine
  obtain ⟨e', hmap, -, hread⟩ :=
    @Reckoner.exists_ofString_eq none _ _ h.shaped h.proper nofun hwords
  rw [hnotes] at hread
  exact ⟨e', hmap, hread⟩

theorem Expression.Writable.height_root {e : Expression} (h : e.Writable) :
    (ParsedLine.ofString (spelled e.leaves) none).root.height = e.height := by
  obtain ⟨e', hmap, hread⟩ := h.exists_ofString_eq
  rw [hread, ← height_map (f := unplaced) e', hmap, height_map]

theorem Expression.Writable.tooDeep_iff {e : Expression} (h : e.Writable) (n : Nat) :
    (ParsedLine.ofString (spelled e.leaves) (some n)).tooDeep = true ↔ ¬ e.Fits n 0 := by
  obtain ⟨e', hmap, hread⟩ := h.exists_ofString_eq
  rw [Reckoner.tooDeep_iff, hread, ← fits_map (f := unplaced) e', hmap, fits_map]

/-- The tree in `k` parentheses. -/
def Expression.inParens (e : Expression) : Nat → Expression
  | 0 => e
  | k + 1 => .parenthesized ⟨.openParen, 0, "(", none⟩ (e.inParens k) ⟨.closeParen, 0, ")", none⟩

section InParens

variable {e : Expression}

theorem Expression.height_inParens (e : Expression) (k : Nat) :
    (e.inParens k).height = e.height + k := by
  induction k with
  | zero => rfl
  | succ k ih => rw [inParens, height, ih, Nat.add_assoc]

theorem Expression.fits_inParens : (e.inParens k).Fits n d ↔ e.Fits n (d + k) := by
  induction k generalizing d with
  | zero => rfl
  | succ k ih =>
    have hdepth : d + 1 + k = d + (k + 1) := by omega
    rw [inParens, Fits, ih, hdepth, and_iff_right_iff_imp]
    intro h
    have := h.lt
    omega

theorem Expression.Writable.inParens (h : e.Writable) (k : Nat) : (e.inParens k).Writable := by
  induction k with
  | zero => exact h
  | succ k ih =>
    refine ⟨shaped_parenthesized.mpr ih.shaped, ⟨rfl, rfl, ih.proper⟩, fun t ht => ?_⟩
    simp only [Expression.inParens, leaves, List.cons_append, List.mem_cons, List.mem_append,
      List.not_mem_nil, or_false] at ht
    rcases ht with rfl | ht | rfl
    · exact genuine_first '(' [] rfl
    · exact ih.genuine t ht
    · exact genuine_first ')' [] rfl

end InParens

/-- A sum of `j + 1` ones. -/
def sumOfOnes : Nat → Expression
  | 0 => .literal ⟨.number, 0, "1", some (.integer 1)⟩
  | j + 1 => .binary (sumOfOnes j) ⟨.plus, 0, "+", none⟩
      (.literal ⟨.number, 0, "1", some (.integer 1)⟩)

theorem height_sumOfOnes (j : Nat) : (sumOfOnes j).height = j + 1 := by
  induction j with
  | zero => rfl
  | succ j ih =>
    rw [sumOfOnes, height, ih, height]
    omega

theorem fits_sumOfOnes (hj : j < n) (hd : d + 1 < n) : (sumOfOnes j).Fits n d := by
  induction j with
  | zero => exact Nat.lt_of_succ_lt hd
  | succ j ih => exact ⟨ih (by omega), by rwa [height_sumOfOnes], hd⟩

theorem writable_sumOfOnes (j : Nat) : (sumOfOnes j).Writable := by
  have hone : Genuine ⟨.number, 0, "1", some (.integer 1)⟩ := genuine_first '1' [] rfl
  induction j with
  | zero =>
    refine ⟨shaped_literal, .inl rfl, fun t ht => ?_⟩
    rw [List.mem_singleton.mp ht]
    exact hone
  | succ j ih =>
    have hright : (sumOfOnes j).RightAtLeast 3 := by
      cases j with
      | zero => trivial
      | succ j => exact ⟨⟨3, rfl, Nat.le_refl 3⟩, trivial⟩
    refine ⟨shaped_binary.mpr ⟨3, rfl, by decide, ih.shaped, hright, shaped_literal⟩,
      ⟨nofun, ih.proper, .inl rfl⟩, fun t ht => ?_⟩
    simp only [sumOfOnes, leaves, List.mem_append, List.mem_cons, List.not_mem_nil,
      or_false] at ht
    rcases ht with ht | rfl | rfl
    · exact ih.genuine t ht
    · exact genuine_first '+' [] rfl
    · exact hone

/-- The line of a sum of `j + 1` ones in `k` parentheses. -/
def bracketedSum (k j : Nat) : String :=
  spelled ((sumOfOnes j).inParens k).leaves

example : bracketedSum 1 2 = "( 1 + 1 + 1 ) " := by decide

/-- Two counts that are never added let both the parentheses and the sum approach the limit. -/
theorem height_bracketedSum (hj : j < nestingLimit) (hk : k + 1 < nestingLimit) :
    (ParsedLine.ofString (bracketedSum k j)).tooDeep = false ∧
      (ParsedLine.ofString (bracketedSum k j)).root.height = j + 1 + k := by
  have hw := (writable_sumOfOnes j).inParens k
  have hfits : ((sumOfOnes j).inParens k).Fits nestingLimit 0 :=
    fits_inParens.mpr (fits_sumOfOnes hj (by omega))
  have hdeep : (ParsedLine.ofString (bracketedSum k j)).tooDeep = false := by
    rw [Bool.eq_false_iff]
    exact fun h => (hw.tooDeep_iff nestingLimit).mp h hfits
  refine ⟨hdeep, ?_⟩
  rw [ParsedLine.ofString_eq hdeep, bracketedSum, hw.height_root, height_inParens,
    height_sumOfOnes]

theorem tooDeep_bracketedSum {k : Nat} (hk : nestingLimit ≤ k) (j : Nat) :
    (ParsedLine.ofString (bracketedSum k j)).tooDeep = true := by
  refine (((writable_sumOfOnes j).inParens k).tooDeep_iff nestingLimit).mpr fun h => ?_
  have hinner := (fits_inParens.mp h).lt
  omega

/-! ## What the limit changes -/

/-- **The limit is transparent.** A line that is not given up is read as if there were no limit; no
line is given up whose tree is then not higher than the limit; and of a line that is given up, the notes
in front of the one that says so are the first notes without the limit, and the tokens in the tree are
the first tokens of the tree without it. -/
theorem limit_transparent (line : String) :
    ((ParsedLine.ofString line).tooDeep = false →
      ParsedLine.ofString line = ParsedLine.ofString line none) ∧
    ((ParsedLine.ofString line none).root.height ≤ nestingLimit →
      (ParsedLine.ofString line).tooDeep = false) ∧
    ((ParsedLine.ofString line).tooDeep = true → ∃ before span,
      (ParsedLine.ofString line).diagnostics.toList =
        before ++ [⟨span, .nestedTooDeep nestingLimit⟩] ∧
      before <+: (ParsedLine.ofString line none).diagnostics.toList ∧
      (ParsedLine.ofString line).root.written <+:
        (ParsedLine.ofString line none).root.written) := by
  refine ⟨ParsedLine.ofString_eq, fun hheight => ?_, fun hdeep => ?_⟩
  · rw [Bool.eq_false_iff]
    intro hdeep
    have hzero : 0 + (ParsedLine.ofString line none).root.height ≤ nestingLimit :=
      (Nat.zero_add _).symm ▸ hheight
    exact (tooDeep_iff line nestingLimit).mp hdeep (fits_of_height_le hzero)
  · obtain ⟨⟨lost, hcut⟩, before, span, hd, hbefore⟩ := ParsedLine.cutFrom_of_tooDeep hdeep
    exact ⟨before, span, hd, hbefore, hcut.written_prefix⟩

theorem limit_transparent_bracketedSum :
    ParsedLine.ofString (bracketedSum 1 2) = ParsedLine.ofString (bracketedSum 1 2) none ∧
    (ParsedLine.ofString (bracketedSum 0 255)).tooDeep = false ∧
    ∃ before span,
      (ParsedLine.ofString (bracketedSum 256 0)).diagnostics.toList =
        before ++ [⟨span, .nestedTooDeep nestingLimit⟩] ∧
      before <+: (ParsedLine.ofString (bracketedSum 256 0) none).diagnostics.toList ∧
      (ParsedLine.ofString (bracketedSum 256 0)).root.written <+:
        (ParsedLine.ofString (bracketedSum 256 0) none).root.written := by
  have hshallow := @height_bracketedSum 1 2 (by decide) (by decide)
  have hsum : (ParsedLine.ofString (bracketedSum 0 255) none).root.height ≤ nestingLimit := by
    rw [bracketedSum, ((writable_sumOfOnes 255).inParens 0).height_root, height_inParens,
      height_sumOfOnes]
    decide
  have hdeep : (ParsedLine.ofString (bracketedSum 256 0)).tooDeep = true := by
    refine (((writable_sumOfOnes 0).inParens 256).tooDeep_iff nestingLimit).mpr fun h => ?_
    exact absurd (fits_inParens.mp h).lt (by decide)
  exact ⟨(limit_transparent _).1 hshallow.1, (limit_transparent _).2.1 hsum,
    (limit_transparent _).2.2 hdeep⟩

/-! ## How high a tree may be -/

/-- **The tree of a line that is not given up is less than twice as high as the limit.** -/
theorem height_lt_twice_limit (line : String) (h : (ParsedLine.ofString line).tooDeep = false) :
    (ParsedLine.ofString line).root.height + 2 ≤ 2 * nestingLimit := by
  have hfits := fits_of_tooDeep h
  have hheight := hfits.height_le (by decide)
  rw [ParsedLine.ofString_eq h]
  omega

/-- No tree is allowed to be higher than this one, in which 254 parentheses stand around a sum of 256
numbers. -/
theorem height_lt_twice_limit_bracketedSum :
    (ParsedLine.ofString (bracketedSum 254 255)).tooDeep = false ∧
      (ParsedLine.ofString (bracketedSum 254 255)).root.height + 2 = 2 * nestingLimit := by
  obtain ⟨hdeep, hheight⟩ := @height_bracketedSum 254 255 (by decide) (by decide)
  refine ⟨hdeep, Nat.le_antisymm (height_lt_twice_limit _ hdeep) ?_⟩
  rw [hheight]
  decide

/-- One pair of parentheses around a sum that reaches the limit is let through. -/
theorem higher_than_limit : (ParsedLine.ofString (bracketedSum 1 255)).tooDeep = false ∧
    nestingLimit < (ParsedLine.ofString (bracketedSum 1 255)).root.height := by
  obtain ⟨hdeep, hheight⟩ := @height_bracketedSum 1 255 (by decide) (by decide)
  refine ⟨hdeep, ?_⟩
  rw [hheight]
  decide

end Reckoner
