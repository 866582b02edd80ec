import Reckoner.Number
import Reckoner.Text.Lines

/-!
# Texts that can be taken apart

What was written can be read off a text if what separates its parts does not occur in them.

* `Text.append_cons_inj`: what stands in front of a separator and what stands behind it.
* `Text.Lines.splitOn_join`, `Text.Lines.join_injective`: the lines of a text.
* `Decimal.natural_injective`, `Decimal.integer_injective`: the number that was written;
  `Decimal.not_mem_integer`: its digits are no separators.
-/

namespace Reckoner

namespace Text

/-! ## Separators -/

/-- Two texts that are cut at `x` and at `y` are cut in the same place if neither separator stands
in front of the other. -/
theorem append_cons_inj {α : Type} {s s' t t' : List α} {x y : α}
    (h : s ++ x :: t = s' ++ y :: t') (hx : x ∉ s') (hy : y ∉ s) : s = s' ∧ x = y ∧ t = t' := by
  rcases List.append_eq_append_iff.mp h with ⟨more, rfl, hmore⟩ | ⟨more, rfl, hmore⟩
  · cases more with
    | nil =>
      obtain ⟨hxy, ht⟩ := List.cons.inj hmore
      exact ⟨(List.append_nil _).symm, hxy, ht⟩
    | cons z zs =>
      obtain ⟨rfl, -⟩ := List.cons.inj hmore
      exact absurd (List.mem_append_right s List.mem_cons_self) hx
  · cases more with
    | nil =>
      obtain ⟨hxy, ht⟩ := List.cons.inj hmore
      exact ⟨List.append_nil _, hxy.symm, ht.symm⟩
    | cons z zs =>
      obtain ⟨rfl, -⟩ := List.cons.inj hmore
      exact absurd (List.mem_append_right s' List.mem_cons_self) hy

namespace Lines

@[simp] theorem toList_join (ls : List String) :
    (join ls).toList = ls.flatMap fun l => l.toList ++ ['\n'] := by
  simp [join, String.toList_join, List.flatMap_map]

/-- **Lines without line feeds are what line feeds cut their text into**, with nothing behind the
last one. -/
theorem splitOn_join {ls : List String} (h : ∀ l ∈ ls, '\n' ∉ l.toList) :
    (join ls).toList.splitOn '\n' = ls.map String.toList ++ [[]] := by
  rw [toList_join]
  induction ls with
  | nil => rfl
  | cons l ls ih =>
    obtain ⟨hl, hls⟩ := List.forall_mem_cons.mp h
    rw [List.flatMap_cons, List.append_assoc, List.singleton_append,
      List.splitOn_append_cons_self_of_not_mem hl, ih hls, List.map_cons, List.cons_append]

theorem join_injective {ls ls' : List String} (h : ∀ l ∈ ls, '\n' ∉ l.toList)
    (h' : ∀ l ∈ ls', '\n' ∉ l.toList) (hjoin : join ls = join ls') : ls = ls' := by
  have hlines := splitOn_join h
  rw [hjoin, splitOn_join h'] at hlines
  exact ((List.map_inj_right fun _ _ h => String.toList_injective h).mp
    (List.append_cancel_right hlines)).symm

theorem count_join {ls : List String} (h : ∀ l ∈ ls, '\n' ∉ l.toList) :
    (join ls).toList.count '\n' = ls.length := by
  rw [toList_join]
  induction ls with
  | nil => rfl
  | cons l ls ih =>
    obtain ⟨hl, hls⟩ := List.forall_mem_cons.mp h
    rw [List.flatMap_cons, List.count_append, List.count_append, List.count_eq_zero_of_not_mem hl,
      ih hls, List.length_cons, Nat.zero_add, Nat.add_comm]
    rfl

end Lines

end Text

/-! ## Numbers -/

namespace Decimal

theorem natural_injective : Function.Injective natural := by
  intro m n h
  have hdigits := congrArg String.toList h
  rw [toList_natural, toList_natural] at hdigits
  rw [← Nat.ofDigitChars_ten_toDigits (n := m), hdigits, Nat.ofDigitChars_ten_toDigits]

theorem isDigit_of_mem_natural {n : Nat} {c : Char} (h : c ∈ (natural n).toList) :
    c.isDigit = true := by
  rw [toList_natural] at h
  exact Nat.isDigit_of_mem_toDigits (by decide) (by decide) h

theorem natural_ne_minus (m n : Nat) : natural m ≠ "-" ++ natural n := by
  intro h
  have hmem : '-' ∈ (natural m).toList := by simp [h]
  exact absurd (isDigit_of_mem_natural hmem) (by decide)

theorem integer_injective : Function.Injective integer := by
  intro m n h
  cases m with
  | ofNat m =>
    cases n with
    | ofNat n => exact congrArg Int.ofNat (natural_injective h)
    | negSucc n => exact absurd h (natural_ne_minus m (n + 1))
  | negSucc m =>
    cases n with
    | ofNat n => exact absurd h.symm (natural_ne_minus n (m + 1))
    | negSucc n =>
      have hsucc := natural_injective ((String.append_right_inj "-").mp h)
      rw [Nat.succ.inj hsucc]

theorem not_mem_integer {c : Char} (hd : c.isDigit = false) (hs : c ≠ '-') (n : Int) :
    c ∉ (integer n).toList := by
  have hnatural (m : Nat) : c ∉ (natural m).toList := fun h =>
    Bool.false_ne_true (hd.symm.trans (isDigit_of_mem_natural h))
  cases n with
  | ofNat n => exact hnatural n
  | negSucc n =>
    rw [integer, String.toList_append, List.mem_append]
    rintro (h | h)
    · exact hs (by simpa using h)
    · exact hnatural _ h

end Decimal

end Reckoner
