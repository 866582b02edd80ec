import Reckoner.Expression

/-!
# The shape of expressions

Which trees respect the precedence of their operators, said of the trees alone, and which trees have
every token in a place where a token of its kind may stand.

* `Expression.Shaped`: what stands above a minimum and inside respects all precedences.
* `Expression.Proper`: literals, operators and parentheses are tokens of these kinds.
* `Expression.parts`: the expressions of which a tree consists, in postorder.
* `Expression.map`: the tree with its tokens replaced; `shaped_map`, `proper_map`: only the kinds of
  the tokens matter for its shape.
* `Expression.exists_leaves_eq`: a tree can be given any tokens in place of its own.
-/

namespace Reckoner.Expression

/-! ## Precedence -/

/-- The binary operators down the left spine bind tighter than `minimum`, and a unary operator where
the spine ends at least as tightly. -/
def LeftAbove (minimum : Nat) : Expression → Prop
  | literal _ => True
  | unary op _ => ∃ u ∈ op.kind.unaryPrecedence?, minimum ≤ u
  | binary l op _ => (∃ q ∈ op.kind.binaryPrecedence?, minimum < q) ∧ l.LeftAbove minimum
  | parenthesized _ _ _ => True

/-- The operators down the right spine, unary ones too, bind at least as tightly as `least`. -/
def RightAtLeast (least : Nat) : Expression → Prop
  | literal _ => True
  | unary op e => (∃ u ∈ op.kind.unaryPrecedence?, least ≤ u) ∧ e.RightAtLeast least
  | binary _ op r => (∃ q ∈ op.kind.binaryPrecedence?, least ≤ q) ∧ r.RightAtLeast least
  | parenthesized _ _ _ => True

/-- Every operator of the tree keeps its operands above itself: a binary one the left operand along
the right spine and the right operand along the left spine. Parentheses keep nothing. -/
def Layered : Expression → Prop
  | literal _ => True
  | unary op e => (∃ u ∈ op.kind.unaryPrecedence?, e.LeftAbove u) ∧ e.Layered
  | binary l op r =>
    (∃ q ∈ op.kind.binaryPrecedence?, l.RightAtLeast q ∧ r.LeftAbove q) ∧ l.Layered ∧ r.Layered
  | parenthesized _ e _ => e.LeftAbove 0 ∧ e.Layered

/-- The tree respects the precedence of its operators and stands above `minimum`. -/
def Shaped (minimum : Nat) (e : Expression) : Prop :=
  e.LeftAbove minimum ∧ e.Layered

instance decidableLeftAbove (m : Nat) : (e : Expression) → Decidable (e.LeftAbove m)
  | literal _ => isTrue trivial
  | unary op _ => inferInstanceAs (Decidable (∃ u ∈ op.kind.unaryPrecedence?, m ≤ u))
  | binary l op _ =>
    have := decidableLeftAbove m l
    inferInstanceAs (Decidable ((∃ q ∈ op.kind.binaryPrecedence?, m < q) ∧ l.LeftAbove m))
  | parenthesized _ _ _ => isTrue trivial

instance decidableRightAtLeast (n : Nat) : (e : Expression) → Decidable (e.RightAtLeast n)
  | literal _ => isTrue trivial
  | unary op e =>
    have := decidableRightAtLeast n e
    inferInstanceAs (Decidable ((∃ u ∈ op.kind.unaryPrecedence?, n ≤ u) ∧ e.RightAtLeast n))
  | binary _ op r =>
    have := decidableRightAtLeast n r
    inferInstanceAs (Decidable ((∃ q ∈ op.kind.binaryPrecedence?, n ≤ q) ∧ r.RightAtLeast n))
  | parenthesized _ _ _ => isTrue trivial

instance decidableLayered : (e : Expression) → Decidable e.Layered
  | literal _ => isTrue trivial
  | unary op e =>
    have := decidableLayered e
    inferInstanceAs (Decidable ((∃ u ∈ op.kind.unaryPrecedence?, e.LeftAbove u) ∧ e.Layered))
  | binary l op r =>
    have := decidableLayered l
    have := decidableLayered r
    inferInstanceAs (Decidable ((∃ q ∈ op.kind.binaryPrecedence?,
      l.RightAtLeast q ∧ r.LeftAbove q) ∧ l.Layered ∧ r.Layered))
  | parenthesized _ e _ =>
    have := decidableLayered e
    inferInstanceAs (Decidable (e.LeftAbove 0 ∧ e.Layered))

instance decidableShaped (m : Nat) (e : Expression) : Decidable (e.Shaped m) :=
  inferInstanceAs (Decidable (e.LeftAbove m ∧ e.Layered))

section Shape

variable {m : Nat} {t op o c : Token} {e l r : Expression}

@[simp] theorem shaped_literal : (literal t).Shaped m :=
  ⟨trivial, trivial⟩

theorem shaped_unary : (unary op e).Shaped m ↔
    ∃ u, op.kind.unaryPrecedence? = some u ∧ m ≤ u ∧ e.Shaped u := by
  constructor
  · rintro ⟨⟨u, hu, hm⟩, ⟨v, hv, he⟩, hi⟩
    obtain rfl : u = v := Option.some.inj (hu.symm.trans hv)
    exact ⟨u, hu, hm, he, hi⟩
  · rintro ⟨u, hu, hm, he, hi⟩
    exact ⟨⟨u, hu, hm⟩, ⟨u, hu, he⟩, hi⟩

theorem shaped_binary : (binary l op r).Shaped m ↔
    ∃ q, op.kind.binaryPrecedence? = some q ∧ m < q ∧ l.Shaped m ∧ l.RightAtLeast q ∧
      r.Shaped q := by
  constructor
  · rintro ⟨⟨⟨q, hq, hm⟩, hl⟩, ⟨q', hq', hlr, hr⟩, hli, hri⟩
    obtain rfl : q = q' := Option.some.inj (hq.symm.trans hq')
    exact ⟨q, hq, hm, ⟨hl, hli⟩, hlr, hr, hri⟩
  · rintro ⟨q, hq, hm, ⟨hl, hli⟩, hlr, hr, hri⟩
    exact ⟨⟨⟨q, hq, hm⟩, hl⟩, ⟨q, hq, hlr, hr⟩, hli, hri⟩

@[simp] theorem shaped_parenthesized : (parenthesized o e c).Shaped m ↔ e.Shaped 0 :=
  ⟨fun h => h.2, fun h => ⟨trivial, h⟩⟩

end Shape

/-! ## Tokens in their places -/

/-- Every token stands where a token of its kind may stand. -/
def Proper : Expression → Prop
  | literal t => t.kind = .number ∨ t.kind = .trueWord ∨ t.kind = .falseWord
  | unary op e => op.kind.unaryPrecedence? ≠ none ∧ e.Proper
  | binary l op r => op.kind.binaryPrecedence? ≠ none ∧ l.Proper ∧ r.Proper
  | parenthesized o e c => o.kind = .openParen ∧ c.kind = .closeParen ∧ e.Proper

instance decidableProper : (e : Expression) → Decidable e.Proper
  | literal t =>
    inferInstanceAs (Decidable (t.kind = .number ∨ t.kind = .trueWord ∨ t.kind = .falseWord))
  | unary op e =>
    have := decidableProper e
    inferInstanceAs (Decidable (op.kind.unaryPrecedence? ≠ none ∧ e.Proper))
  | binary l op r =>
    have := decidableProper l
    have := decidableProper r
    inferInstanceAs (Decidable (op.kind.binaryPrecedence? ≠ none ∧ l.Proper ∧ r.Proper))
  | parenthesized o e c =>
    have := decidableProper e
    inferInstanceAs (Decidable (o.kind = .openParen ∧ c.kind = .closeParen ∧ e.Proper))

/-! ## Parts -/

/-- The expressions of which the tree consists, in postorder: the operands from left to right, and
then what stands above them. -/
def parts : Expression → List Expression
  | literal t => [literal t]
  | unary op e => e.parts ++ [unary op e]
  | binary l op r => l.parts ++ r.parts ++ [binary l op r]
  | parenthesized o e c => e.parts ++ [parenthesized o e c]

theorem self_mem_parts (e : Expression) : e ∈ e.parts := by
  cases e <;> simp [parts]

theorem mem_leaves_of_mem_parts {t : Token} {e : Expression} (h : literal t ∈ e.parts) :
    t ∈ e.leaves := by
  induction e with
  | literal s => simpa [parts, leaves] using h
  | unary op e ih =>
    have he : literal t ∈ e.parts := by simpa [parts] using h
    exact List.mem_cons_of_mem _ (ih he)
  | binary l op r ihl ihr =>
    have hlr : literal t ∈ l.parts ∨ literal t ∈ r.parts := by simpa [parts] using h
    rcases hlr with hl | hr
    · exact List.mem_append_left _ (ihl hl)
    · exact List.mem_append_right _ (List.mem_cons_of_mem _ (ihr hr))
  | parenthesized o e c ih =>
    have he : literal t ∈ e.parts := by simpa [parts] using h
    exact List.mem_cons_of_mem _ (List.mem_append_left _ (ih he))

theorem Proper.of_mem_parts {e f : Expression} (h : e.Proper) (hf : f ∈ e.parts) : f.Proper := by
  induction e with
  | literal t => exact List.mem_singleton.mp hf ▸ h
  | unary op e ih =>
    rcases List.mem_append.mp hf with hf | hf
    · exact ih h.2 hf
    · exact List.mem_singleton.mp hf ▸ h
  | binary l op r ihl ihr =>
    rcases List.mem_append.mp hf with hf | hf
    · rcases List.mem_append.mp hf with hf | hf
      · exact ihl h.2.1 hf
      · exact ihr h.2.2 hf
    · exact List.mem_singleton.mp hf ▸ h
  | parenthesized o e c ih =>
    rcases List.mem_append.mp hf with hf | hf
    · exact ih h.2.2 hf
    · exact List.mem_singleton.mp hf ▸ h

/-! ## Trees that differ in their tokens -/

/-- The tree with every token replaced. -/
def map (f : Token → Token) : Expression → Expression
  | literal t => literal (f t)
  | unary op e => unary (f op) (e.map f)
  | binary l op r => binary (l.map f) (f op) (r.map f)
  | parenthesized o e c => parenthesized (f o) (e.map f) (f c)

variable {f : Token → Token} {m n : Nat}

@[simp] theorem leaves_map (e : Expression) : (e.map f).leaves = e.leaves.map f := by
  induction e with
  | literal t => rfl
  | unary op e ih => simp [map, leaves, ih]
  | binary l op r ihl ihr => simp [map, leaves, ihl, ihr]
  | parenthesized o e c ih => simp [map, leaves, ih]

@[simp] theorem height_map (e : Expression) : (e.map f).height = e.height := by
  induction e with
  | literal t => rfl
  | unary op e ih => simp [map, height, ih]
  | binary l op r ihl ihr => simp [map, height, ihl, ihr]
  | parenthesized o e c ih => simp [map, height, ih]

section Kinds

variable (hf : ∀ t, (f t).kind = t.kind)
include hf

theorem leftAbove_map (e : Expression) : (e.map f).LeftAbove m ↔ e.LeftAbove m := by
  induction e with
  | literal t => rfl
  | unary op e ih => simp [map, LeftAbove, hf]
  | binary l op r ihl ihr => simp [map, LeftAbove, hf, ihl]
  | parenthesized o e c ih => rfl

theorem rightAtLeast_map (e : Expression) : (e.map f).RightAtLeast n ↔ e.RightAtLeast n := by
  induction e with
  | literal t => rfl
  | unary op e ih => simp [map, RightAtLeast, hf, ih]
  | binary l op r ihl ihr => simp [map, RightAtLeast, hf, ihr]
  | parenthesized o e c ih => rfl

theorem layered_map (e : Expression) : (e.map f).Layered ↔ e.Layered := by
  induction e with
  | literal t => rfl
  | unary op e ih => simp [map, Layered, hf, leftAbove_map hf, ih]
  | binary l op r ihl ihr =>
    simp [map, Layered, hf, leftAbove_map hf, rightAtLeast_map hf, ihl, ihr]
  | parenthesized o e c ih => simp [map, Layered, leftAbove_map hf, ih]

theorem shaped_map (e : Expression) : (e.map f).Shaped m ↔ e.Shaped m :=
  and_congr (leftAbove_map hf e) (layered_map hf e)

theorem proper_map (e : Expression) : (e.map f).Proper ↔ e.Proper := by
  induction e with
  | literal t => simp [map, Proper, hf]
  | unary op e ih => simp [map, Proper, hf, ih]
  | binary l op r ihl ihr => simp [map, Proper, hf, ihl, ihr]
  | parenthesized o e c ih => simp [map, Proper, hf, ih]

end Kinds

/-- Tokens that agree with those of a tree under `f` can take their places. -/
theorem exists_leaves_eq (e : Expression) {ts : List Token} (h : ts.map f = e.leaves.map f) :
    ∃ e' : Expression, e'.leaves = ts ∧ e'.map f = e.map f := by
  induction e generalizing ts with
  | literal t =>
    obtain ⟨t', rfl, ht⟩ := List.map_eq_singleton_iff.mp h
    exact ⟨literal t', rfl, congrArg literal ht⟩
  | unary op e ih =>
    obtain ⟨op', ts', rfl, hop, hts⟩ := List.map_eq_cons_iff.mp h
    obtain ⟨e', rfl, he⟩ := ih hts
    exact ⟨unary op' e', rfl, by rw [map, map, hop, he]⟩
  | binary l op r ihl ihr =>
    rw [leaves, List.map_append, List.map_cons] at h
    obtain ⟨tl, tr, rfl, htl, htr⟩ := List.map_eq_append_iff.mp h
    obtain ⟨op', tr', rfl, hop, htr⟩ := List.map_eq_cons_iff.mp htr
    obtain ⟨l', rfl, hl⟩ := ihl htl
    obtain ⟨r', rfl, hr⟩ := ihr htr
    exact ⟨binary l' op' r', rfl, by rw [map, map, hl, hop, hr]⟩
  | parenthesized o e c ih =>
    rw [leaves, List.cons_append, List.map_cons, List.map_append] at h
    obtain ⟨o', ts', rfl, ho, hts⟩ := List.map_eq_cons_iff.mp h
    obtain ⟨te, tc, rfl, hte, htc⟩ := List.map_eq_append_iff.mp hts
    obtain ⟨c', rfl, hc⟩ := List.map_eq_singleton_iff.mp htc
    obtain ⟨e', rfl, he⟩ := ih hte
    exact ⟨parenthesized o' e' c', rfl, by rw [map, map, ho, he, hc]⟩

end Reckoner.Expression
