import Reckoner.Proofs.Composition
import Reckoner.Proofs.Expression.TooDeep

/-!
# Types of trees that are cut

Where the reading of a line is given up, a placeholder may stand for an operand, and typing takes it
for an integer. If the operand is of another type, the operators above it may not apply to integers,
and typing says so: such a line has more than the one complaint about its levels.

* `Expression.HasType`: nothing is wrong with the types of a tree; `HasType.exists_elaborate`,
  `hasType_of_elaborate`: this is when typing notes nothing.
* `Expression.misfits`: what is said about the operators above a placeholder; `CutFrom.misread`:
  this and nothing else is said about a tree that is cut.
* `OnlyTooDeep`: lines that are given up and have nothing else wrong with them;
  `Writable.onlyTooDeep`: trees in parentheses make such lines.
* **`evaluate_tooDeep`**: what a line comes to that is given up and has nothing else wrong with it.
-/

namespace Reckoner

open Expression Token

/-! ## Overloads -/

theorem UnaryOverload.result_of_ne_sqrtWord :
    ∀ o ∈ all, o.token ≠ .sqrtWord → o.result = o.operand := by
  decide

/-- What a unary operator makes of an integer: one that applies to truth values does not apply to
integers, and all others do. -/
theorem UnaryOverload.find?_integer : ∀ o ∈ all,
    (o.operand = .boolean → o.token ≠ .sqrtWord ∧ find? o.token .integer = none) ∧
    (o.operand ≠ .boolean → ∃ o', find? o.token .integer = some o' ∧
      o'.result = if o.token = .sqrtWord then o.result else .integer) := by
  decide

theorem BinaryOverload.find?_eq_none {token : TokenKind} {left right : ValueType}
    (h : left ≠ right) : find? token left right = none := by
  cases ho : find? token left right with
  | none => rfl
  | some o =>
    obtain ⟨hmem, -, rfl, rfl⟩ := find?_spec ho
    obtain ⟨hl, hr, -⟩ := type_of_mem o hmem
    exact absurd (hl.trans hr.symm) h

namespace Expression

/-! ## Trees with nothing wrong in their types -/

/-- The tree is of this type, and each of its operators applies to operands of their types. -/
inductive HasType : Expression → ValueType → Prop
  | literal (t : Token) : HasType (.literal t) t.denoted.type
  | unary {op : Token} {e : Expression} {type : ValueType} {o : UnaryOverload}
      (he : e.HasType type) (ho : UnaryOverload.find? op.kind type = some o) :
      HasType (.unary op e) o.result
  | binary {l r : Expression} {op : Token} {type : ValueType} {o : BinaryOverload}
      (hl : l.HasType type) (hr : r.HasType type)
      (ho : BinaryOverload.find? op.kind type type = some o) : HasType (.binary l op r) type
  | parenthesized {opening closing : Token} {e : Expression} {type : ValueType}
      (he : e.HasType type) : HasType (.parenthesized opening e closing) type

variable {n d : Nat} {e f : Expression} {type : ValueType} {lost : Option Expression}
  {noted : Array Diagnostic}

theorem hasType_literal {t : Token} :
    (literal t).HasType type ↔ type = t.denoted.type := by
  constructor
  · intro h
    cases h with
    | literal => rfl
  · rintro rfl
    exact .literal t

theorem hasType_unary {op : Token} : (unary op e).HasType type ↔
    ∃ operand o, e.HasType operand ∧ UnaryOverload.find? op.kind operand = some o ∧
      o.result = type := by
  constructor
  · intro h
    cases h with
    | unary he ho => exact ⟨_, _, he, ho, rfl⟩
  · rintro ⟨operand, o, he, ho, rfl⟩
    exact .unary he ho

theorem hasType_binary {op : Token} {l r : Expression} : (binary l op r).HasType type ↔
    l.HasType type ∧ r.HasType type ∧
      ∃ o, BinaryOverload.find? op.kind type type = some o := by
  constructor
  · intro h
    cases h with
    | binary hl hr ho => exact ⟨hl, hr, _, ho⟩
  · rintro ⟨hl, hr, o, ho⟩
    exact .binary hl hr ho

theorem hasType_parenthesized {opening closing : Token} :
    (parenthesized opening e closing).HasType type ↔ e.HasType type := by
  constructor
  · intro h
    cases h with
    | parenthesized he => exact he
  · exact .parenthesized

theorem HasType.exists_elaborate (h : e.HasType type) :
    ∃ typed : TypedExpression, typed.type = type ∧
      ∀ noted, e.elaborate noted = (typed, noted) := by
  induction h with
  | literal t => exact ⟨.literal t.denoted, rfl, fun noted => rfl⟩
  | @unary op e type o _ ho ih =>
    obtain ⟨typed, rfl, hel⟩ := ih
    exact ⟨.unary o typed, rfl, fun noted => by simp [elaborate, hel, ho]⟩
  | @binary l r op type o _ _ ho ihl ihr =>
    obtain ⟨left, rfl, hl⟩ := ihl
    obtain ⟨right, hright, hr⟩ := ihr
    obtain ⟨hmem, -, hleft, -⟩ := BinaryOverload.find?_spec ho
    refine ⟨.binary left o right, ?_, fun noted => by simp [elaborate, hl, hr, hright, ho]⟩
    exact (BinaryOverload.type_of_mem o hmem).1.symm.trans hleft
  | parenthesized _ ih =>
    obtain ⟨typed, htype, hel⟩ := ih
    exact ⟨.parenthesized typed, htype, fun noted => by simp [elaborate, hel]⟩

theorem exists_elaborate (e : Expression) : ∃ (typed : TypedExpression) (own : Array Diagnostic),
    ∀ noted, e.elaborate noted = (typed, noted ++ own) := by
  obtain ⟨typed, own, h⟩ := e.exists_elaborate_moved
  refine ⟨typed, (own.map (Diagnostic.moved 0)).toArray, fun noted => ?_⟩
  rw [← h 0 noted, map_moved_zero]

theorem eq_empty_of_append {own : Array Diagnostic} (h : noted ++ own = noted) : own = #[] := by
  simpa using h

/-- **Typing notes nothing only where nothing is wrong.** -/
theorem hasType_of_elaborate (h : (e.elaborate noted).2 = noted) :
    e.HasType (e.elaborate noted).1.type := by
  induction e generalizing noted with
  | literal t => exact .literal t
  | unary op e ih =>
    obtain ⟨typed, own, hel⟩ := e.exists_elaborate
    cases ho : UnaryOverload.find? op.kind typed.type with
    | some o =>
      simp only [elaborate, hel, ho] at h ⊢
      have hquiet : (e.elaborate noted).2 = noted := by rw [hel]; exact h
      have he := ih hquiet
      rw [hel] at he
      exact .unary he ho
    | none =>
      have hsize := congrArg Array.size h
      simp only [elaborate, hel, ho, Array.size_push, Array.size_append] at hsize
      omega
  | binary l op r ihl ihr =>
    obtain ⟨left, ownl, hl⟩ := l.exists_elaborate
    obtain ⟨right, ownr, hr⟩ := r.exists_elaborate
    cases ho : BinaryOverload.find? op.kind left.type right.type with
    | some o =>
      simp only [elaborate, hl, hr, ho, Array.append_assoc] at h ⊢
      obtain ⟨hownl, hownr⟩ := Array.append_eq_empty_iff.mp (eq_empty_of_append h)
      have hquietl : (l.elaborate noted).2 = noted := by rw [hl, hownl, Array.append_empty]
      have hquietr : (r.elaborate noted).2 = noted := by rw [hr, hownr, Array.append_empty]
      have htl := ihl hquietl
      have htr := ihr hquietr
      rw [hl] at htl
      rw [hr] at htr
      obtain ⟨hmem, -, hleft, hright⟩ := BinaryOverload.find?_spec ho
      obtain ⟨hol, hor, -⟩ := BinaryOverload.type_of_mem o hmem
      have hsame : right.type = left.type := by rw [← hright, ← hleft, hol, hor]
      have htype : (TypedExpression.binary left o right).type = left.type := hol.symm.trans hleft
      rw [hsame] at htr ho
      rw [htype]
      exact .binary htl htr ho
    | none =>
      have hsize := congrArg Array.size h
      simp only [elaborate, hl, hr, ho, Array.size_push, Array.size_append] at hsize
      omega
  | parenthesized o e c ih => exact .parenthesized (ih h)

/-! ## What typing says about a placeholder -/

/-- Whether the type of the last operand shows at the root: nothing stands above it but parentheses
and unary operators that keep types. -/
def showsLast : Expression → Bool
  | literal _ => true
  | unary op e => e.showsLast && op.kind != .sqrtWord
  | binary _ _ _ => false
  | parenthesized _ e _ => e.showsLast

/-- What is said about the operators above the last operand, the innermost first, if it is an
integer where one of the type `type` should stand. Its type is lost above the first binary operator,
which keeps that of its left operand, and above a `sqrt`, which makes a double of every number. -/
def misfits (type : ValueType) : Expression → List Diagnostic
  | literal _ => []
  | unary op e => e.misfits type ++
      if e.showsLast = true ∧ type = .boolean
      then [⟨op.span, .undefinedUnary op.literal .integer⟩] else []
  | binary _ op r => r.misfits type ++
      if r.showsLast = true ∧ type ≠ .integer
      then [⟨op.span, .undefinedBinary op.literal type .integer⟩] else []
  | parenthesized _ e _ => e.misfits type

theorem misfits_integer (e : Expression) : e.misfits .integer = [] := by
  induction e with
  | literal t => rfl
  | unary op e ih => simp [misfits, ih]
  | binary l op r _ ihr => simp [misfits, ihr]
  | parenthesized o e c ih => exact ih

theorem HasType.unique {other : ValueType} (h : e.HasType type) (hother : e.HasType other) :
    type = other := by
  obtain ⟨typed, rfl, hel⟩ := h.exists_elaborate
  obtain ⟨typed', rfl, hel'⟩ := hother.exists_elaborate
  rw [(Prod.mk.inj ((hel #[]).symm.trans (hel' #[]))).1]

/-- What typing makes of a tree `e` in which an integer stands for an operand of the type `σ`, where
the whole was of the type `type`. -/
structure Misread (e : Expression) (σ type : ValueType) (typed : TypedExpression) : Prop where
  elaborate : ∀ noted, e.elaborate noted = (typed, noted ++ (e.misfits σ).toArray)
  shows : e.showsLast = true → typed.type = .integer ∧ type = σ
  hides : e.showsLast = false → typed.type = type

section Misread

variable {σ : ValueType} {typed : TypedExpression} {op : Token} {l r : Expression}

theorem Misread.unary {o : UnaryOverload} (h : Misread e σ type typed)
    (ho : UnaryOverload.find? op.kind type = some o) :
    ∃ typed', Misread (.unary op e) σ o.result typed' := by
  obtain ⟨hmem, htoken, hoperand⟩ := UnaryOverload.find?_spec ho
  cases hs : e.showsLast with
  | false =>
    have htype := h.hides hs
    refine ⟨.unary o typed, fun noted => ?_, fun hshow => ?_, fun _ => rfl⟩
    · simp [Expression.elaborate, h.elaborate, htype, ho, misfits, hs]
    · simp [showsLast, hs] at hshow
  | true =>
    -- the operator meets an integer, at which only those for truth values are not defined
    obtain ⟨hint, rfl⟩ := h.shows hs
    obtain ⟨htruth, hnumber⟩ := UnaryOverload.find?_integer o hmem
    rw [hoperand, htoken] at htruth hnumber
    by_cases hb : type = .boolean
    · obtain ⟨hroot, hnone⟩ := htruth hb
      refine ⟨typed, fun noted => ?_, fun _ => ⟨hint, ?_⟩, fun hhide => ?_⟩
      · simp [Expression.elaborate, h.elaborate, hint, hnone, misfits, hs, hb]
      · rw [UnaryOverload.result_of_ne_sqrtWord o hmem (htoken ▸ hroot), hoperand]
      · simp [showsLast, hs, hroot] at hhide
    · obtain ⟨o', ho', hresult⟩ := hnumber hb
      refine ⟨.unary o' typed, fun noted => ?_, fun hshow => ?_, fun hhide => ?_⟩
      · simp [Expression.elaborate, h.elaborate, hint, ho', misfits, hb]
      · have hroot : op.kind ≠ .sqrtWord := by simpa [showsLast, hs] using hshow
        rw [if_neg hroot] at hresult
        refine ⟨hresult, ?_⟩
        rw [UnaryOverload.result_of_ne_sqrtWord o hmem (htoken ▸ hroot), hoperand]
      · have hroot : op.kind = .sqrtWord := by simpa [showsLast, hs] using hhide
        rw [if_pos hroot] at hresult
        exact hresult

theorem Misread.binary {o : BinaryOverload} (hl : l.HasType type) (h : Misread r σ type typed)
    (ho : BinaryOverload.find? op.kind type type = some o) :
    ∃ typed', Misread (.binary l op r) σ type typed' := by
  obtain ⟨left, hleft, hell⟩ := hl.exists_elaborate
  obtain ⟨hmem, -, hol, -⟩ := BinaryOverload.find?_spec ho
  have htype : (TypedExpression.binary left o typed).type = type :=
    (BinaryOverload.type_of_mem o hmem).1.symm.trans hol
  by_cases hfit : typed.type = type
  · -- either the type of the last operand does not show, or it is an integer as it should be
    have hsilent : ¬ (r.showsLast = true ∧ σ ≠ .integer) := by
      rintro ⟨hs, hσ⟩
      obtain ⟨hint, rfl⟩ := h.shows hs
      exact hσ (hfit.symm.trans hint)
    refine ⟨.binary left o typed, fun noted => ?_, fun hshow => ?_, fun _ => htype⟩
    · simp only [Expression.elaborate, hell, h.elaborate, hleft, hfit, ho, misfits, if_neg hsilent,
        List.append_nil]
    · simp [showsLast] at hshow
  · have hs : r.showsLast = true := by
      cases hs : r.showsLast with
      | false => exact absurd (h.hides hs) hfit
      | true => rfl
    obtain ⟨hint, rfl⟩ := h.shows hs
    have hσ : type ≠ .integer := fun hσ => hfit (hint.trans hσ.symm)
    have hnone : BinaryOverload.find? op.kind type .integer = none :=
      BinaryOverload.find?_eq_none hσ
    refine ⟨left, fun noted => ?_, fun hshow => ?_, fun _ => hleft⟩
    · simp [Expression.elaborate, hell, h.elaborate, hleft, hint, hnone, misfits, hs, hσ]
    · simp [showsLast] at hshow

/-- **What is said about a tree from which an operand is cut** are the misfits of its type, and the
tree is of the type that it had, but for an integer that shows. By induction on the way down to the
cut: what stands beside this way is as it was. -/
theorem CutFrom.misread {g : Expression} (h : CutFrom n d (some g) e f) (hf : f.HasType type) :
    ∃ σ typed, g.HasType σ ∧ Misread e σ type typed := by
  generalize hlost : some g = lost at h
  induction h generalizing type with
  | operand position _ =>
    obtain rfl := Option.some.inj hlost
    refine ⟨type, .literal (.integer 0), hf, fun noted => ?_, fun _ => ⟨rfl, rfl⟩, fun hhide => ?_⟩
    · exact congrArg _ Array.append_empty.symm
    · simp [showsLast] at hhide
  | operator _ _ => cases hlost
  | left _ _ ih =>
    cases hf with
    | binary hl hr ho => exact ih hl hlost
  | right _ _ _ ih =>
    cases hf with
    | binary hl hr ho =>
      obtain ⟨σ, typed, hg, h⟩ := ih hr hlost
      obtain ⟨typed', h'⟩ := h.binary hl ho
      exact ⟨σ, typed', hg, h'⟩
  | unary _ _ ih =>
    cases hf with
    | unary he ho =>
      obtain ⟨σ, typed, hg, h⟩ := ih he hlost
      obtain ⟨typed', h'⟩ := h.unary ho
      exact ⟨σ, typed', hg, h'⟩
  | parenthesized position _ _ ih =>
    cases hf with
    | parenthesized he =>
      obtain ⟨σ, typed, hg, h⟩ := ih he hlost
      refine ⟨σ, .parenthesized typed, hg, fun noted => ?_, h.shows, h.hides⟩
      rw [Expression.elaborate, h.elaborate, misfits]

theorem CutFrom.hasType (h : CutFrom n d none e f) (hf : f.HasType type) : e.HasType type := by
  generalize hlost : none = lost at h
  induction h generalizing type with
  | operand position _ => cases hlost
  | operator _ _ =>
    cases hf with
    | binary hl hr ho => exact hl
  | left _ _ ih =>
    cases hf with
    | binary hl hr ho => exact ih hl hlost
  | right _ _ _ ih =>
    cases hf with
    | binary hl hr ho => exact .binary hl (ih hr hlost) ho
  | unary _ _ ih =>
    cases hf with
    | unary he ho => exact .unary (ih he hlost) ho
  | parenthesized position _ _ ih =>
    cases hf with
    | parenthesized he => exact .parenthesized (ih he hlost)

end Misread

/-! ## Trees in other places and in parentheses -/

theorem hasType_map_unplaced (e : Expression) :
    (e.map unplaced).HasType type ↔ e.HasType type := by
  have hkind (t : Token) : t.unplaced.kind = t.kind := rfl
  have hdenoted (t : Token) : t.unplaced.denoted = t.denoted := rfl
  induction e generalizing type with
  | literal t => simp only [map, hasType_literal, hdenoted]
  | unary op e ih => simp only [map, hasType_unary, hkind, ih]
  | binary l op r ihl ihr => simp only [map, hasType_binary, hkind, ihl, ihr]
  | parenthesized o e c ih => simp only [map, hasType_parenthesized, ih]

theorem HasType.inParens (h : e.HasType type) (k : Nat) : (e.inParens k).HasType type := by
  induction k with
  | zero => exact h
  | succ k ih => exact .parenthesized ih

theorem CutFrom.of_literal {t : Token} (h : CutFrom n d lost e f)
    (hf : f.map unplaced = (Expression.literal t).map unplaced) :
    lost = some f ∧ f.HasType t.denoted.type ∧
      ∃ position, e = .literal (.missing .number position) := by
  have htype : f.HasType t.denoted.type := by
    rw [← hasType_map_unplaced, hf, hasType_map_unplaced]
    exact .literal t
  cases f with
  | literal t' =>
    cases h with
    | operand position hd => exact ⟨rfl, htype, position, rfl⟩
  | _ => simp [map] at hf

theorem CutFrom.of_inParens {g : Expression} {k : Nat} (h : CutFrom n d lost e f)
    (hf : f.map unplaced = (g.inParens k).map unplaced) (hk : d + k ≤ n) :
    ∃ e' f', f'.map unplaced = g.map unplaced ∧ CutFrom n (d + k) lost e' f' ∧
      ∀ σ, e.misfits σ = e'.misfits σ := by
  induction k generalizing d e f with
  | zero => exact ⟨e, f, hf, h, fun σ => rfl⟩
  | succ k ih =>
    cases f with
    | parenthesized o f c =>
      have hinner : f.map unplaced = (g.inParens k).map unplaced := by
        simp only [map, Expression.inParens, parenthesized.injEq] at hf
        exact hf.2.1
      cases h with
      | operand position hd => omega
      | parenthesized position hd h =>
        obtain ⟨e', f', hmap, hcut, hmisfits⟩ := ih h hinner (by omega)
        refine ⟨e', f', hmap, ?_, hmisfits⟩
        rwa [Nat.add_right_comm] at hcut
    | _ => simp [map, Expression.inParens] at hf

end Expression

/-! ## What lines that are given up come to -/

variable {line : String}

/-- A line that is given up and has nothing else wrong with it: without the limit neither reading
nor typing would note anything. -/
structure OnlyTooDeep (line : String) : Prop where
  parsed : (ParsedLine.ofString line none).diagnostics = #[]
  typed : ((ParsedLine.ofString line none).root.elaborate #[]).2 = #[]
  tooDeep : (ParsedLine.ofString line).tooDeep = true

theorem OnlyTooDeep.evaluate_eq (h : OnlyTooDeep line) {typed : TypedExpression}
    {own : Array Diagnostic}
    (hel : ∀ noted, (ParsedLine.ofString line).root.elaborate noted = (typed, noted ++ own)) :
    ∃ span, evaluate line =
      .ok (.diagnostics (#[⟨span, .nestedTooDeep nestingLimit⟩] ++ own)) := by
  obtain ⟨-, before, span, hd, hbefore⟩ := ParsedLine.cutFrom_of_tooDeep h.tooDeep
  rw [h.parsed] at hbefore
  have hnotes :
      (ParsedLine.ofString line).diagnostics = #[⟨span, .nestedTooDeep nestingLimit⟩] := by
    rw [List.prefix_nil.mp hbefore] at hd
    exact Array.toList_inj.mp hd
  refine ⟨span, ?_⟩
  rw [evaluate, Analysis.evaluate, Analysis.ofString]
  simp [hnotes, hel]

theorem Expression.Writable.onlyTooDeep {e : Expression} {type : ValueType} {k : Nat}
    (hw : e.Writable) (htype : e.HasType type) (hdeep : ¬ e.Fits nestingLimit k) :
    OnlyTooDeep (spelled (e.inParens k).leaves) := by
  obtain ⟨e', hmap, hread⟩ := (hw.inParens k).exists_ofString_eq
  refine ⟨by rw [hread], ?_, ?_⟩
  · have hfree : e'.HasType type := by
      rw [← hasType_map_unplaced, hmap, hasType_map_unplaced]
      exact htype.inParens k
    obtain ⟨typed, -, hel⟩ := hfree.exists_elaborate
    rw [hread, hel]
  · refine ((hw.inParens k).tooDeep_iff nestingLimit).mpr fun h => hdeep ?_
    simpa using fits_inParens.mp h

theorem Expression.Writable.cut_inParens {e : Expression} {k : Nat} {lost : Option Expression}
    (hw : e.Writable) (hk : k ≤ nestingLimit)
    (hcut : CutFrom nestingLimit 0 lost (ParsedLine.ofString (spelled (e.inParens k).leaves)).root
      (ParsedLine.ofString (spelled (e.inParens k).leaves) none).root) :
    ∃ e' f', f'.map unplaced = e.map unplaced ∧ CutFrom nestingLimit k lost e' f' ∧
      ∀ σ, (ParsedLine.ofString (spelled (e.inParens k).leaves)).root.misfits σ = e'.misfits σ := by
  obtain ⟨f, hmap, hread⟩ := (hw.inParens k).exists_ofString_eq
  rw [hread] at hcut
  have h := hcut.of_inParens hmap (by omega)
  rwa [Nat.zero_add] at h

/-- The negation of a truth value. -/
def notTrue : Expression :=
  .unary ⟨.bang, 0, "!", none⟩ (.literal ⟨.trueWord, 0, "true", some (.boolean true)⟩)

theorem writable_notTrue : notTrue.Writable := by
  refine ⟨shaped_unary.mpr ⟨_, rfl, by decide, shaped_literal⟩, ⟨nofun, .inr (.inl rfl)⟩,
    fun t ht => ?_⟩
  simp only [notTrue, leaves, List.mem_cons, List.not_mem_nil, or_false] at ht
  rcases ht with rfl | rfl
  · exact genuine_first '!' [] rfl
  · exact genuine_first 't' ['r', 'u', 'e'] rfl

example : spelled (notTrue.inParens 2).leaves = "( ( ! true ) ) " := by decide

/-- **What a line comes to that is given up** and has nothing else wrong with it: the complaint
about its levels, and one about each operator that does not apply to the integer for which the
placeholder is taken. There is none where no operand is lost, nor where the lost operand is an
integer. -/
theorem evaluate_tooDeep (line : String) (h : OnlyTooDeep line) :
    ∃ span,
      (CutFrom nestingLimit 0 none (ParsedLine.ofString line).root
          (ParsedLine.ofString line none).root ∧
        evaluate line = .ok (.diagnostics #[⟨span, .nestedTooDeep nestingLimit⟩])) ∨
      ∃ lost type, CutFrom nestingLimit 0 (some lost) (ParsedLine.ofString line).root
          (ParsedLine.ofString line none).root ∧
        lost.HasType type ∧
        evaluate line = .ok (.diagnostics (#[⟨span, .nestedTooDeep nestingLimit⟩] ++
          ((ParsedLine.ofString line).root.misfits type).toArray)) ∧
        (type = .integer →
          evaluate line = .ok (.diagnostics #[⟨span, .nestedTooDeep nestingLimit⟩])) := by
  have hfree := hasType_of_elaborate h.typed
  obtain ⟨⟨lost, hcut⟩, -⟩ := ParsedLine.cutFrom_of_tooDeep h.tooDeep
  cases lost with
  | none =>
    obtain ⟨typed, -, hel⟩ := (hcut.hasType hfree).exists_elaborate
    have hquiet (noted : Array Diagnostic) :
        (ParsedLine.ofString line).root.elaborate noted = (typed, noted ++ #[]) := by
      rw [hel, Array.append_empty]
    obtain ⟨span, hanswer⟩ := h.evaluate_eq hquiet
    exact ⟨span, .inl ⟨hcut, hanswer⟩⟩
  | some lost =>
    obtain ⟨type, typed, hlost, hmisread⟩ := hcut.misread hfree
    obtain ⟨span, hanswer⟩ := h.evaluate_eq hmisread.elaborate
    refine ⟨span, .inr ⟨lost, type, hcut, hlost, hanswer, ?_⟩⟩
    rintro rfl
    rw [hanswer, misfits_integer]
    rfl

/-- A one is lost as an integer, so its levels are all that is said about this line. -/
theorem evaluate_bracketedOne : ∃ span, evaluate (bracketedSum 256 0) =
    .ok (.diagnostics #[⟨span, .nestedTooDeep nestingLimit⟩]) := by
  have hone := writable_sumOfOnes 0
  have hline : OnlyTooDeep (bracketedSum 256 0) :=
    hone.onlyTooDeep (.literal _) fun h => absurd h.lt (by decide)
  obtain ⟨span, ⟨-, hanswer⟩ | ⟨lost, type, hcut, hlost, -, hanswer⟩⟩ := evaluate_tooDeep _ hline
  · exact ⟨span, hanswer⟩
  · obtain ⟨e, f, hmap, hcut, -⟩ := hone.cut_inParens (by decide) hcut
    obtain ⟨hsome, hone, -⟩ := hcut.of_literal hmap
    obtain rfl := Option.some.inj hsome
    exact ⟨span, hanswer (hlost.unique hone)⟩

/-- The placeholder for a truth value is no operand of `!`, and typing says so, although nothing is
wrong with the line but its levels. -/
theorem evaluate_bracketedNotTrue :
    OnlyTooDeep (spelled (notTrue.inParens 255).leaves) ∧
    ∃ found : Array Diagnostic, evaluate (spelled (notTrue.inParens 255).leaves) =
        .ok (.diagnostics found) ∧
      found.toList.map Diagnostic.complaint =
        [.nestedTooDeep nestingLimit, .undefinedUnary "!" .integer] := by
  have hw := writable_notTrue
  have htype : notTrue.HasType .boolean := hasType_unary.mpr
    ⟨.boolean, ⟨.bang, .logicalNegation, .boolean, .boolean⟩, .literal _, rfl, rfl⟩
  have hline : OnlyTooDeep (spelled (notTrue.inParens 255).leaves) :=
    hw.onlyTooDeep htype fun h => absurd h.2.lt (by decide)
  refine ⟨hline, ?_⟩
  obtain ⟨⟨lost, hcut⟩, -⟩ := ParsedLine.cutFrom_of_tooDeep hline.tooDeep
  obtain ⟨e, f, hmap, hinner, hmisfits⟩ := hw.cut_inParens (by decide) hcut
  cases f with
  | unary op g =>
    obtain ⟨hop, hg⟩ := Expression.unary.inj hmap
    have hliteral : op.literal = "!" := congrArg Token.literal hop
    cases hinner with
    | operand _ hd => exact absurd hd (by decide)
    | unary _ hoperand =>
      obtain ⟨rfl, htruth, position, rfl⟩ := hoperand.of_literal hg
      obtain ⟨type, typed, hlost, hmisread⟩ := hcut.misread (hasType_of_elaborate hline.typed)
      obtain rfl := hlost.unique htruth
      obtain ⟨span, hanswer⟩ := hline.evaluate_eq hmisread.elaborate
      refine ⟨_, hanswer, ?_⟩
      rw [hmisfits]
      simp [misfits, showsLast, hliteral, denoted, Value.type]
  | _ => simp [map, notTrue] at hmap

end Reckoner
