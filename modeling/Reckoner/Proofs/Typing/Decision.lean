import Reckoner.Proofs.Expression.Shape
import Reckoner.Proofs.Typing.Placeholder

/-!
# What typing decides

Typing notes the operators that are not defined for what became of their operands. An operator that
is left out hands the type of an operand to what stands above it, and may so hide a fault there; but
it is noted itself, so nothing is noted only where every operator can be resolved.

* `UnaryOverload.IsDefined`, `BinaryOverload.IsDefined`: the table has the operator at these types.
* `Expression.undefined?`: the note about the outermost operator of an expression.
* `Expression.Resolves`: the table resolves every operator of an expression, and what that yields.
* **`elaborate_decides`**: what typing notes, when it notes nothing, and what it yields then.
-/

namespace Reckoner

open Expression

/-! ## What the tables define -/

namespace UnaryOverload

/-- The table has the operator at this type. -/
def IsDefined (token : TokenKind) (operand : ValueType) : Prop :=
  ∃ o ∈ all, o.token = token ∧ o.operand = operand

instance (token : TokenKind) (operand : ValueType) : Decidable (IsDefined token operand) :=
  inferInstanceAs (Decidable (∃ o ∈ all, o.token = token ∧ o.operand = operand))

theorem isDefined_iff (token : TokenKind) (operand : ValueType) :
    IsDefined token operand ↔ (find? token operand).isSome = true := by
  simp [IsDefined, find?]

theorem find?_of_mem : ∀ o ∈ all, find? o.token o.operand = some o := by
  decide

theorem find?_eq_some_iff {token : TokenKind} {operand : ValueType} {o : UnaryOverload} :
    find? token operand = some o ↔ o ∈ all ∧ o.token = token ∧ o.operand = operand := by
  constructor
  · exact find?_spec
  · rintro ⟨ho, rfl, rfl⟩
    exact find?_of_mem o ho

end UnaryOverload

namespace BinaryOverload

/-- The table has the operator at these types. -/
def IsDefined (token : TokenKind) (left right : ValueType) : Prop :=
  ∃ o ∈ all, o.token = token ∧ o.left = left ∧ o.right = right

instance (token : TokenKind) (left right : ValueType) : Decidable (IsDefined token left right) :=
  inferInstanceAs (Decidable (∃ o ∈ all, o.token = token ∧ o.left = left ∧ o.right = right))

theorem isDefined_iff (token : TokenKind) (left right : ValueType) :
    IsDefined token left right ↔ (find? token left right).isSome = true := by
  simp [IsDefined, find?]

theorem find?_of_mem : ∀ o ∈ all, find? o.token o.left o.right = some o := by
  decide

theorem find?_eq_some_iff {token : TokenKind} {left right : ValueType} {o : BinaryOverload} :
    find? token left right = some o ↔
      o ∈ all ∧ o.token = token ∧ o.left = left ∧ o.right = right := by
  constructor
  · exact find?_spec
  · rintro ⟨ho, rfl, rfl, rfl⟩
    exact find?_of_mem o ho

end BinaryOverload

namespace Expression

variable {e l r : Expression} {op : Token} {typed : TypedExpression} {noted : Array Diagnostic}

/-! ## What is noted -/

/-- The note about the outermost operator, if it is not defined for what became of its operands. -/
def undefined? : Expression → Option Diagnostic
  | literal _ => none
  | unary op e =>
    let type := (e.elaborate #[]).1.type
    if UnaryOverload.IsDefined op.kind type then none
    else some ⟨op.span, .undefinedUnary op.literal type⟩
  | binary l op r =>
    let types := ((l.elaborate #[]).1.type, (r.elaborate #[]).1.type)
    if BinaryOverload.IsDefined op.kind types.1 types.2 then none
    else some ⟨op.span, .undefinedBinary op.literal types.1 types.2⟩
  | parenthesized _ _ _ => none

theorem elaborate_eq (e : Expression) (noted : Array Diagnostic) :
    e.elaborate noted = ((e.elaborate #[]).1, noted ++ (e.elaborate #[]).2) := by
  obtain ⟨typed, own, h⟩ := e.exists_elaborate
  rw [h noted, h #[], Array.empty_append]

theorem notes_unary (op : Token) (e : Expression) : ((unary op e).elaborate #[]).2.toList =
    (e.elaborate #[]).2.toList ++ (unary op e).undefined?.toList := by
  have hdefined := UnaryOverload.isDefined_iff op.kind (e.elaborate #[]).1.type
  rw [elaborate, undefined?]
  cases ho : UnaryOverload.find? op.kind (e.elaborate #[]).1.type with
  | none => simp [hdefined, ho]
  | some o => simp [hdefined, ho]

theorem notes_binary (l : Expression) (op : Token) (r : Expression) :
    ((binary l op r).elaborate #[]).2.toList =
      (l.elaborate #[]).2.toList ++ (r.elaborate #[]).2.toList ++
        (binary l op r).undefined?.toList := by
  have hdefined :=
    BinaryOverload.isDefined_iff op.kind (l.elaborate #[]).1.type (r.elaborate #[]).1.type
  rw [elaborate, undefined?, elaborate_eq r]
  cases ho : BinaryOverload.find? op.kind (l.elaborate #[]).1.type (r.elaborate #[]).1.type with
  | none => simp [hdefined, ho]
  | some o => simp [hdefined, ho]

theorem filterMap_singleton {α β : Type} (f : α → Option β) (a : α) :
    [a].filterMap f = (f a).toList := by
  cases h : f a with
  | none => simp [h]
  | some b => simp [h]

/-- **Each operator that is not defined for what became of its operands is noted once**, and nothing
else is. -/
theorem notes_elaborate (e : Expression) :
    (e.elaborate #[]).2.toList = e.parts.filterMap undefined? := by
  induction e with
  | literal t => rfl
  | unary op e ih => rw [notes_unary, parts, List.filterMap_append, filterMap_singleton, ih]
  | binary l op r ihl ihr =>
    rw [notes_binary, parts, List.filterMap_append, List.filterMap_append, filterMap_singleton, ihl,
      ihr]
  | parenthesized o e c ih =>
    rw [parts, List.filterMap_append, filterMap_singleton, ← ih]
    exact (List.append_nil _).symm

/-! ## When nothing is noted -/

/-- The table resolves every operator by its token and the types of its operands, and the typed
expression is made of what it resolves them to. -/
inductive Resolves : Expression → TypedExpression → Prop
  | literal (t : Token) : Resolves (.literal t) (.literal t.denoted)
  | unary {op : Token} {e : Expression} {typed : TypedExpression} {o : UnaryOverload}
      (he : e.Resolves typed) (ho : o ∈ UnaryOverload.all) (htoken : o.token = op.kind)
      (hoperand : o.operand = typed.type) : Resolves (.unary op e) (.unary o typed)
  | binary {l r : Expression} {op : Token} {left right : TypedExpression} {o : BinaryOverload}
      (hl : l.Resolves left) (hr : r.Resolves right) (ho : o ∈ BinaryOverload.all)
      (htoken : o.token = op.kind) (hleft : o.left = left.type) (hright : o.right = right.type) :
      Resolves (.binary l op r) (.binary left o right)
  | parenthesized {opening closing : Token} {e : Expression} {typed : TypedExpression}
      (he : e.Resolves typed) : Resolves (.parenthesized opening e closing) (.parenthesized typed)

theorem Resolves.elaborate_eq (h : e.Resolves typed) (noted : Array Diagnostic) :
    e.elaborate noted = (typed, noted) := by
  induction h generalizing noted with
  | literal t => rfl
  | @unary op e typed o _ ho htoken hoperand ih =>
    have hfind := UnaryOverload.find?_eq_some_iff.mpr ⟨ho, htoken, hoperand⟩
    simp [elaborate, ih, hfind]
  | @binary l r op left right o _ _ ho htoken hleft hright ihl ihr =>
    have hfind := BinaryOverload.find?_eq_some_iff.mpr ⟨ho, htoken, hleft, hright⟩
    simp [elaborate, ihl, ihr, hfind]
  | parenthesized _ ih => simp [elaborate, ih]

theorem undefined?_unary_eq_none : (unary op e).undefined? = none ↔
    UnaryOverload.IsDefined op.kind (e.elaborate #[]).1.type := by
  simp [undefined?]

theorem undefined?_binary_eq_none : (binary l op r).undefined? = none ↔
    BinaryOverload.IsDefined op.kind (l.elaborate #[]).1.type (r.elaborate #[]).1.type := by
  simp [undefined?]

/-- **Where no operator is noted, the table resolves all of them.** Nothing was left out below an
operator, so what became of its operands is what the table resolves them to. -/
theorem resolves_of_parts (h : ∀ f ∈ e.parts, f.undefined? = none) :
    e.Resolves (e.elaborate #[]).1 := by
  induction e with
  | literal t => exact .literal t
  | unary op e ih =>
    rw [parts, List.forall_mem_append, List.forall_mem_singleton] at h
    obtain ⟨o, ho, htoken, hoperand⟩ := undefined?_unary_eq_none.mp h.2
    have hfind := UnaryOverload.find?_eq_some_iff.mpr ⟨ho, htoken, hoperand⟩
    rw [elaborate, hfind]
    exact .unary (ih h.1) ho htoken hoperand
  | binary l op r ihl ihr =>
    rw [parts, List.forall_mem_append, List.forall_mem_append, List.forall_mem_singleton] at h
    obtain ⟨⟨hl, hr⟩, hroot⟩ := h
    obtain ⟨o, ho, htoken, hleft, hright⟩ := undefined?_binary_eq_none.mp hroot
    have hfind := BinaryOverload.find?_eq_some_iff.mpr ⟨ho, htoken, hleft, hright⟩
    rw [elaborate, r.elaborate_eq, hfind]
    exact .binary (ihl hl) (ihr hr) ho htoken hleft hright
  | parenthesized o e c ih =>
    rw [parts, List.forall_mem_append] at h
    exact .parenthesized (ih h.1)

theorem notes_eq_empty_iff (e : Expression) :
    (e.elaborate #[]).2 = #[] ↔ ∀ f ∈ e.parts, f.undefined? = none := by
  rw [← Array.toList_eq_nil_iff, notes_elaborate, List.filterMap_eq_nil_iff]

theorem resolves_iff : e.Resolves typed ↔
    (e.elaborate #[]).2 = #[] ∧ (e.elaborate #[]).1 = typed := by
  constructor
  · intro h
    rw [h.elaborate_eq]
    exact ⟨rfl, rfl⟩
  · rintro ⟨hquiet, rfl⟩
    exact resolves_of_parts ((notes_eq_empty_iff e).mp hquiet)

theorem hasType_iff {type : ValueType} : e.HasType type ↔
    (e.elaborate #[]).2 = #[] ∧ (e.elaborate #[]).1.type = type := by
  constructor
  · intro h
    obtain ⟨typed, htype, hel⟩ := h.exists_elaborate
    rw [hel]
    exact ⟨rfl, htype⟩
  · rintro ⟨hquiet, rfl⟩
    exact hasType_of_elaborate hquiet

end Expression

theorem Analysis.diagnostics_eq (line : String) : (ofString line).diagnostics =
    (ParsedLine.ofString line).diagnostics ++
      ((ParsedLine.ofString line).root.elaborate #[]).2 := by
  rw [ofString, Expression.elaborate_eq]

/-- **Typing decides.** What it notes, and what it makes of an expression, does not depend on earlier
notes. It notes each operator that is not defined for what became of its operands, once, with its
place, its characters and their types, the operands from left to right before the operator between
them. It notes nothing exactly if the expression has a type, or the table resolves all of its
operators; and then it yields what they are resolved to, which is of this type. -/
theorem elaborate_decides (e : Expression) :
    (∀ noted, e.elaborate noted = ((e.elaborate #[]).1, noted ++ (e.elaborate #[]).2)) ∧
    (e.elaborate #[]).2.toList = e.parts.filterMap undefined? ∧
    ((e.elaborate #[]).2 = #[] ↔ ∃ type, e.HasType type) ∧
    (∀ type, e.HasType type ↔ (e.elaborate #[]).2 = #[] ∧ (e.elaborate #[]).1.type = type) ∧
    ∀ typed, e.Resolves typed ↔ (e.elaborate #[]).2 = #[] ∧ (e.elaborate #[]).1 = typed := by
  refine ⟨e.elaborate_eq, e.notes_elaborate, ⟨fun hquiet => ?_, ?_⟩, fun type => hasType_iff,
    fun typed => resolves_iff⟩
  · exact ⟨_, hasType_iff.mpr ⟨hquiet, rfl⟩⟩
  · rintro ⟨type, h⟩
    exact (hasType_iff.mp h).1

/-- The sum is left out for its left operand, at which the sign is defined and `!` is not. -/
example :
    ((ParsedLine.ofString "-(1 + true)").root.elaborate #[]).2 =
      #[⟨⟨4, 1⟩, .undefinedBinary "+" .integer .boolean⟩] ∧
    ((ParsedLine.ofString "!(1 + true)").root.elaborate #[]).2 =
      #[⟨⟨4, 1⟩, .undefinedBinary "+" .integer .boolean⟩,
        ⟨⟨0, 1⟩, .undefinedUnary "!" .integer⟩] := by
  decide +kernel

end Reckoner
