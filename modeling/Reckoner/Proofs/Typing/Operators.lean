import Mathlib.Data.List.Perm.Subperm
import Reckoner.Proofs.Expression.Lossless
import Reckoner.Proofs.Typing.Decision

/-!
# Operators that typing notes

Typing looks at each operator of an expression once. The operators of what is read off a line are
tokens of it, each at a place of its own, so no two notes of typing point at one place.

* `Expression.operators`: the operators in the order in which typing comes to them.
* `ParsedLine.mem_operators`, `ParsedLine.pairwise_operators`: those of a line are different tokens
  of it.
* `Diagnostic.IsAboutOperator`: what typing says about an operator.
* `ParsedLine.pairwise_elaborate`: what typing notes about a line is about different operators.
-/

namespace Reckoner

open Expression Reckoner.Parser

namespace Expression

/-- The operator that is applied last, if the expression is an operator and its operands. -/
def operator? : Expression → Option Token
  | literal _ => none
  | unary op _ => some op
  | binary _ op _ => some op
  | parenthesized _ _ _ => none

/-- The operators, each behind those of its operands. -/
def operators (e : Expression) : List Token :=
  e.parts.filterMap operator?

variable {e l r : Expression} {op opening closing t : Token} {d : Diagnostic}

@[simp] theorem operators_literal : (literal t).operators = [] :=
  rfl

@[simp] theorem operators_unary : (unary op e).operators = e.operators ++ [op] := by
  simp [operators, parts, operator?]

@[simp] theorem operators_binary :
    (binary l op r).operators = l.operators ++ r.operators ++ [op] := by
  simp [operators, parts, operator?]

@[simp] theorem operators_parenthesized :
    (parenthesized opening e closing).operators = e.operators := by
  simp [operators, parts, operator?]

theorem operators_subperm (e : Expression) : e.operators.Subperm e.leaves := by
  induction e with
  | literal t =>
    rw [operators_literal]
    exact List.nil_subperm
  | unary op e ih =>
    rw [operators_unary, leaves]
    exact (List.perm_append_singleton op e.operators).subperm.trans ((List.subperm_cons op).mpr ih)
  | binary l op r ihl ihr =>
    rw [operators_binary, leaves]
    have hoperands : (l.operators ++ r.operators).Subperm (l.leaves ++ r.leaves) :=
      ihl.append ihr
    exact (List.perm_append_singleton op _).subperm.trans
      (((List.subperm_cons op).mpr hoperands).trans List.perm_middle.symm.subperm)
  | parenthesized o e c ih =>
    rw [operators_parenthesized, leaves]
    exact ih.trans (List.infix_append [o] e.leaves [c]).sublist.subperm

end Expression

/-! ## The operators of a line -/

/-- The operators that were read before a task. -/
def Task.operators : Task → List Token
  | nested _ => []
  | operand _ => []
  | chain _ left _ => left.operators

variable {limit : Option Nat} {task : Task} {p q : Parser} {e : Expression} {h m n : Nat}
  {line : String} {op : Token} {d : Diagnostic} {more : List Diagnostic}

namespace Parser

/-- From this place on, `op` is one of the tokens, and of a kind for operators. -/
def Offers (p : Parser) (op : Token) : Prop :=
  op ∈ p.rest ∧ op.kind ∈ unaryKinds ++ binaryKinds

theorem Offers.of_leadsTo (hop : q.Offers op) (hlead : p.LeadsTo q more) : p.Offers op :=
  ⟨hlead.rest.subset hop.1, hop.2⟩

theorem offers_current (hk : p.current.kind ∈ unaryKinds ++ binaryKinds) : p.Offers p.current := by
  have hend : p.current.kind ≠ .ending := fun hend => by
    rw [hend] at hk
    exact absurd hk (by decide)
  refine ⟨?_, hk⟩
  rw [rest_eq_current_cons hend]
  exact List.mem_cons_self

theorem offers_of_unaryAt? (hn : p.unaryAt? m = some n) : p.Offers p.current := by
  have hk := Option.ne_none_iff_exists'.mpr ⟨n, (unaryAt?_eq_some.mp hn).1⟩
  exact offers_current (List.mem_append_left _ (mem_unaryKinds.mpr hk))

theorem offers_of_binaryAt? (hn : p.binaryAt? m = some n) : p.Offers p.current := by
  have hk := Option.ne_none_iff_exists'.mpr ⟨n, (binaryAt?_eq_some.mp hn).1⟩
  exact offers_current (List.mem_append_right _ (mem_binaryKinds.mpr hk))

end Parser

/-- **The operators that are read are tokens of the line** of kinds for operators. -/
theorem Reads.operators (hr : Reads limit task p e h q) (hop : op ∈ e.operators) :
    op ∈ task.operators ∨ p.Offers op := by
  induction hr with
  | shut => exact absurd hop List.not_mem_nil
  | opened _ hfirst _ ihfirst ihchain =>
    obtain ⟨_, hlead⟩ := hfirst.leadsTo
    rcases ihchain hop with hop | hlater
    · exact ihfirst hop
    · exact .inr ((hlater.of_leadsTo hlead).of_leadsTo (.enter _))
  | unary hq _ ih =>
    rw [operators_unary] at hop
    rcases List.mem_append.mp hop with hop | hop
    · have hinner := (ih hop).resolve_left List.not_mem_nil
      exact .inr (hinner.of_leadsTo (.advance _))
    · rw [List.mem_singleton.mp hop]
      exact .inr (offers_of_unaryAt? hq)
  | parenthesized _ _ _ ih =>
    rw [operators_parenthesized] at hop
    have hinner := (ih hop).resolve_left List.not_mem_nil
    exact .inr (hinner.of_leadsTo (.advance _))
  | truth => exact absurd hop List.not_mem_nil
  | number => exact absurd hop List.not_mem_nil
  | done => exact .inl hop
  | cut => exact .inl hop
  | link hq _ hright _ ihright ihchain =>
    obtain ⟨_, hlead⟩ := hright.leadsTo
    rcases ihchain hop with hop | hlater
    · rw [Task.operators, operators_binary] at hop
      rcases List.mem_append.mp hop with hop | hop
      · rcases List.mem_append.mp hop with hleft | hop
        · exact .inl hleft
        · have hinner := (ihright hop).resolve_left List.not_mem_nil
          exact .inr (hinner.of_leadsTo (.advance _))
      · rw [List.mem_singleton.mp hop]
        exact .inr (offers_of_binaryAt? hq)
    · exact .inr ((hlater.of_leadsTo hlead).of_leadsTo (.advance _))

namespace ParsedLine

theorem mem_operators (hop : op ∈ (ofString line limit).root.operators) :
    (Parser.ofString line).Offers op :=
  (((Task.nested 0).isRead limit (Parser.ofString line)).operators hop).resolve_left
    List.not_mem_nil

theorem pairwise_operators (line : String) (limit : Option Nat) :
    (ofString line limit).root.operators.Pairwise fun s t => s.position ≠ t.position := by
  obtain ⟨ts, hleaves, hwalk⟩ :=
    ((Task.nested 0).isRead limit (Parser.ofString line)).exists_walk
  obtain ⟨later, hrest⟩ :=
    (hwalk.account rfl fun _ ht => bne_iff_ne.mpr (literal_ne_of_mem ht)).exists_rest_eq
  have hwritten : (ofString line limit).root.operators.filter Token.isWritten =
      (ofString line limit).root.operators :=
    List.filter_eq_self.mpr fun op hop =>
      bne_iff_ne.mpr (literal_ne_of_mem (mem_operators hop).1)
  have hsub := (operators_subperm (ofString line limit).root).filter Token.isWritten
  rw [hwritten, show (ofString line limit).root.leaves = ts from hleaves] at hsub
  obtain ⟨ops, hperm, hops⟩ := hsub
  have hplaces := (pairwise_position line).imp Nat.ne_of_lt
  rw [hrest] at hplaces
  exact (hperm.pairwise_iff Ne.symm).mp
    (hplaces.sublist (hops.trans (List.sublist_append_left _ later)))

end ParsedLine

/-! ## What typing notes -/

/-- What typing says about an operator: it quotes its characters. -/
inductive Diagnostic.IsAboutOperator (op : Token) (d : Diagnostic) : Prop
  | unary {operand : ValueType} (hspan : d.span = op.span)
      (hmessage : d.message =
        "unary operator '" ++ op.literal ++ "' is not defined for type " ++ operand.name)
  | binary {left right : ValueType} (hspan : d.span = op.span)
      (hmessage : d.message = "binary operator '" ++ op.literal ++ "' is not defined for types " ++
        left.name ++ " and " ++ right.name)

theorem Diagnostic.IsAboutOperator.span_eq (h : d.IsAboutOperator op) : d.span = op.span := by
  cases h with
  | unary hspan _ => exact hspan
  | binary hspan _ => exact hspan

/-- What is noted about an expression is noted about the operator that is applied last. -/
theorem Expression.operator?_of_undefined? (hd : e.undefined? = some d) :
    ∃ op, e.operator? = some op ∧ d.IsAboutOperator op := by
  cases e with
  | literal t => exact absurd hd.symm (Option.some_ne_none d)
  | unary op e =>
    simp only [undefined?] at hd
    split at hd
    · exact absurd hd.symm (Option.some_ne_none d)
    · exact ⟨op, rfl, Option.some.inj hd ▸ .unary rfl rfl⟩
  | binary l op r =>
    simp only [undefined?] at hd
    split at hd
    · exact absurd hd.symm (Option.some_ne_none d)
    · exact ⟨op, rfl, Option.some.inj hd ▸ .binary rfl rfl⟩
  | parenthesized o e c => exact absurd hd.symm (Option.some_ne_none d)

theorem Expression.exists_operator (hd : d ∈ (e.elaborate #[]).2.toList) :
    ∃ op ∈ e.operators, d.IsAboutOperator op := by
  rw [notes_elaborate] at hd
  obtain ⟨f, hf, hd⟩ := List.mem_filterMap.mp hd
  obtain ⟨op, hop, habout⟩ := operator?_of_undefined? hd
  exact ⟨op, List.mem_filterMap.mpr ⟨f, hf, hop⟩, habout⟩

/-- **What typing notes about a line is about different operators**: no two notes point at one
place. -/
theorem ParsedLine.pairwise_elaborate (line : String) (limit : Option Nat) :
    ((ofString line limit).root.elaborate #[]).2.toList.Pairwise fun d d' => d.span ≠ d'.span := by
  rw [notes_elaborate, List.pairwise_filterMap]
  refine (List.pairwise_filterMap.mp (pairwise_operators line limit)).imp ?_
  intro f f' hne d hd d' hd' hspan
  obtain ⟨op, hop, habout⟩ := operator?_of_undefined? hd
  obtain ⟨op', hop', habout'⟩ := operator?_of_undefined? hd'
  rw [habout.span_eq, habout'.span_eq] at hspan
  exact hne op hop op' hop' (congrArg Span.start hspan)

end Reckoner
