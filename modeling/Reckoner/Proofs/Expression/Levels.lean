import Reckoner.Proofs.Expression.Precedence

/-!
# Levels

Two things are counted while a line is read: the expressions that are open, and the levels of what
stands in front of an operator. Neither count is the height of the tree, and they are never added, so
that a tree may be nearly twice as high as the limit on each.

* `Reads.depth_eq`, `Reads.height_eq`: every expression that is opened is closed, and the levels that
  are counted are the levels of what is read.
* `Expression.Fits`: neither count reaches the limit anywhere in a tree; `fits_of_height_le`,
  `Fits.height_le`: what this says about its height.
* `Expression.CutFrom`: what is left of a tree in which a count reaches the limit.
-/

namespace Reckoner

open Reckoner.Parser

variable {limit : Option Nat} {t : Task} {p p' : Parser} {e : Expression} {h : Nat}

/-! ## What is counted -/

theorem Parser.reached?_of_lt {n count : Nat} (h : count < n) : reached? (some n) count = none := by
  refine reached?_eq_none fun k hk => ?_
  obtain rfl := Option.some.inj hk
  exact h

theorem Parser.reached?_of_le {n count : Nat} (h : n ≤ count) :
    reached? (some n) count = some n := by
  simp [reached?, h]

@[simp] theorem Parser.depth_report (complaint : Complaint) (p : Parser) :
    (p.report complaint).depth = p.depth := by
  unfold report
  split <;> rfl

@[simp] theorem Parser.depth_expect (kind : TokenKind) (p : Parser) :
    (p.expect kind).2.depth = p.depth := by
  unfold expect
  split
  · rfl
  · exact depth_report _ p

/-- **Every expression that is opened is closed.** -/
theorem Reads.depth_eq (hr : Reads limit t p e h p') : p'.depth = p.depth := by
  induction hr with
  | shut hn => exact depth_report _ _
  | opened hn _ _ ihfirst ihchain => rw [leave, ihchain, ihfirst, enter, Nat.add_sub_cancel]
  | unary hq _ ih => exact ih
  | parenthesized hq hk _ ih => exact (depth_expect _ _).trans ih
  | truth hq hk => rfl
  | number hq ho ht hf => exact depth_expect _ _
  | done hq => rfl
  | cut hq hn => exact depth_report _ _
  | link hq hn _ _ ihright ihchain => exact ihchain.trans ihright

/-- The levels of what is read already are counted right. -/
def Task.Counted : Task → Prop
  | chain _ left height => height = left.height
  | _ => True

/-- **The levels that are counted are the levels of what is read.** -/
theorem Reads.height_eq (hr : Reads limit t p e h p') (ht : t.Counted) : h = e.height := by
  induction hr with
  | shut hn => rfl
  | opened hn _ _ ihfirst ihchain => exact ihchain (ihfirst trivial)
  | unary hq _ ih => rw [ih trivial, Expression.height]
  | parenthesized hq hk _ ih => rw [ih trivial, Expression.height]
  | truth hq hk => rfl
  | number hq ho ht hf => rfl
  | done hq => exact ht
  | cut hq hn => exact ht
  | link hq hn _ _ ihright ihchain =>
    refine ihchain ?_
    rw [Task.Counted, Expression.height, ihright trivial, show _ = _ from ht]

/-- The token stands on the line; an empty one takes the place of one that is missing. -/
def Token.isWritten (t : Token) : Bool :=
  t.literal != ""

namespace Expression

/-! ## Trees that fit a limit -/

/-- The tree stands inside `depth` open expressions, and neither count reaches the limit in it: each
operand is opened inside fewer than `limit` expressions, and what stands in front of an operator is
less than `limit` levels high. A left operand is opened together with its operator. -/
def Fits (limit : Nat) : Nat → Expression → Prop
  | depth, literal _ => depth < limit
  | depth, unary _ e => depth < limit ∧ e.Fits limit (depth + 1)
  | depth, binary l _ r => l.Fits limit depth ∧ l.height < limit ∧ r.Fits limit (depth + 1)
  | depth, parenthesized _ e _ => depth < limit ∧ e.Fits limit (depth + 1)

section Fits

variable {n d : Nat} {e : Expression}

theorem Fits.lt (h : e.Fits n d) : d < n := by
  induction e with
  | literal t => exact h
  | unary op e _ => exact h.1
  | binary l op r ih _ => exact ih h.1
  | parenthesized o e c _ => exact h.1

theorem fits_of_height_le (h : d + e.height ≤ n) : e.Fits n d := by
  induction e generalizing d with
  | literal t => exact h
  | unary op e ih =>
    rw [height] at h
    exact ⟨by omega, ih (by omega)⟩
  | binary l op r ihl ihr =>
    rw [height] at h
    exact ⟨ihl (by omega), by omega, ihr (by omega)⟩
  | parenthesized o e c ih =>
    rw [height] at h
    exact ⟨by omega, ih (by omega)⟩

/-- **A tree that fits is less than twice as high as the limit**, by one level more for each
expression around it. -/
theorem Fits.height_le (h : e.Fits n d) (hn : 2 ≤ n) : d + e.height + 2 ≤ 2 * n := by
  induction e generalizing d with
  | literal t =>
    rw [height]
    have : d < n := h
    omega
  | unary op e ih =>
    have := ih h.2
    rw [height]
    omega
  | binary l op r _ ihr =>
    obtain ⟨-, hl, hr⟩ := h
    -- the right operand is opened, so there is room for it even if the left one is higher
    have := hr.lt
    have := ihr hr
    rw [height]
    omega
  | parenthesized o e c ih =>
    have := ih h.2
    rw [height]
    omega

theorem fits_map {f : Token → Token} (e : Expression) : (e.map f).Fits n d ↔ e.Fits n d := by
  induction e generalizing d with
  | literal t => rfl
  | unary op e ih => simp [map, Fits, ih]
  | binary l op r ihl ihr => simp [map, Fits, ihl, ihr]
  | parenthesized o e c ih => simp [map, Fits, ih]

end Fits

/-- The operators that take `e` for their left operand, one after another, make it `f`. -/
inductive Starts (e : Expression) : Expression → Prop
  | refl : Starts e e
  | binary {l r : Expression} {op : Token} (h : Starts e l) : Starts e (.binary l op r)

theorem Starts.left {l r f : Expression} {op : Token} (h : (Expression.binary l op r).Starts f) :
    l.Starts f := by
  induction h with
  | refl => exact .binary .refl
  | binary _ ih => exact .binary ih

/-! ## Trees that are cut -/

/-- `CutFrom limit depth lost e f`: inside `depth` open expressions, `e` is what is left of `f` when
the reading of `f` is given up at the limit. Either an operand, `lost`, is not opened and a placeholder
stands for it, or what stands in front of an operator is left alone and no operand is lost. The
operators in front of the cut keep their places; those behind it and what they apply to are gone. -/
inductive CutFrom (limit : Nat) : Nat → Option Expression → Expression → Expression → Prop
  | operand {depth : Nat} {f : Expression} (position : Nat) (hd : limit ≤ depth) :
      CutFrom limit depth (some f) (.literal (.missing .number position)) f
  | operator {depth : Nat} {l r : Expression} {op : Token} (hl : l.Fits limit depth)
      (hh : limit ≤ l.height) : CutFrom limit depth none l (.binary l op r)
  | left {depth : Nat} {lost : Option Expression} {e l r : Expression} {op : Token}
      (hd : depth < limit) (h : CutFrom limit depth lost e l) :
      CutFrom limit depth lost e (.binary l op r)
  | right {depth : Nat} {lost : Option Expression} {e l r : Expression} {op : Token}
      (hl : l.Fits limit depth) (hh : l.height < limit)
      (h : CutFrom limit (depth + 1) lost e r) :
      CutFrom limit depth lost (.binary l op e) (.binary l op r)
  | unary {depth : Nat} {lost : Option Expression} {e f : Expression} {op : Token}
      (hd : depth < limit) (h : CutFrom limit (depth + 1) lost e f) :
      CutFrom limit depth lost (.unary op e) (.unary op f)
  | parenthesized {depth : Nat} {lost : Option Expression} {e f : Expression} {o c : Token}
      (position : Nat) (hd : depth < limit) (h : CutFrom limit (depth + 1) lost e f) :
      CutFrom limit depth lost (.parenthesized o e (.missing .closeParen position))
        (.parenthesized o f c)

section Cut

variable {n d : Nat} {lost : Option Expression} {e f g : Expression}

theorem CutFrom.not_fits (h : CutFrom n d lost e f) : ¬ f.Fits n d := by
  induction h with
  | operand _ hd => exact fun hf => absurd hf.lt (Nat.not_lt.mpr hd)
  | operator _ hh => exact fun hf => absurd hf.2.1 (Nat.not_lt.mpr hh)
  | left _ _ ih => exact fun hf => ih hf.1
  | right _ _ _ ih => exact fun hf => ih hf.2.2
  | unary _ _ ih => exact fun hf => ih hf.2
  | parenthesized _ _ _ ih => exact fun hf => ih hf.2

theorem CutFrom.starts (h : CutFrom n d lost e f) (hd : d < n) (hg : f.Starts g) :
    CutFrom n d lost e g := by
  induction hg with
  | refl => exact h
  | binary _ ih => exact .left hd ih

/-! ## Tokens that stand on the line -/

/-- The tokens of the tree that stand on the line. -/
def written (e : Expression) : List Token :=
  e.leaves.filter Token.isWritten

variable {l r : Expression} {op o c : Token}

theorem written_unary :
    (unary op e).written = [op].filter Token.isWritten ++ e.written := by
  rw [written, leaves, ← List.singleton_append, List.filter_append, written]

theorem written_binary :
    (binary l op r).written = l.written ++ ([op].filter Token.isWritten ++ r.written) := by
  rw [written, leaves, ← List.singleton_append, List.filter_append, List.filter_append, written,
    written]

theorem written_parenthesized : (parenthesized o e c).written =
    [o].filter Token.isWritten ++ (e.written ++ [c].filter Token.isWritten) := by
  rw [written, leaves, List.cons_append, ← List.singleton_append, List.filter_append,
    List.filter_append, written]

theorem CutFrom.written_prefix (h : CutFrom n d lost e f) : e.written <+: f.written := by
  induction h with
  | operand position _ => exact List.nil_prefix
  | operator _ _ =>
    rw [written_binary]
    exact List.prefix_append _ _
  | left _ _ ih =>
    rw [written_binary]
    exact ih.trans (List.prefix_append _ _)
  | right _ _ _ ih =>
    rw [written_binary, written_binary]
    exact (List.prefix_append_right_inj _).mpr ((List.prefix_append_right_inj _).mpr ih)
  | unary _ _ ih =>
    rw [written_unary, written_unary]
    exact (List.prefix_append_right_inj _).mpr ih
  | parenthesized position _ _ ih =>
    have hclose : [Token.missing .closeParen position].filter Token.isWritten = [] := rfl
    rw [written_parenthesized, written_parenthesized, hclose, List.append_nil]
    exact (List.prefix_append_right_inj _).mpr (ih.trans (List.prefix_append _ _))

end Cut

end Expression

end Reckoner
