import Reckoner.Proofs.Expression.Lines

/-!
# The language of expressions

Which lines are read without notes, said without a parser: the kinds of their tokens are derivable in
a grammar that knows nothing of precedence, and no root or square stands where only an operator that
binds tighter may stand.

* `Derives`: the grammar; `RootsApart`: where roots and squares may not stand.
* `Scan`: one scan of the kinds that counts parentheses and remembers the last operator.
* `Scan.run_of_derives`, `Scan.rootsApart_of_run`: the scan goes over what the grammar and the rule
  about roots allow, and roots are apart where it goes.
* `Reads.silent_of_accepted`: what the scan accepts is read without notes.
* **`silent_iff_derives`**: the lines that are read without notes.
-/

namespace Reckoner

open TokenKind

/-! ## The grammar -/

/-- The operators in front of an expression. -/
def unaryKinds : List TokenKind :=
  [plus, minus, bang, sqrWord, sqrtWord]

/-- The operators between expressions. -/
def binaryKinds : List TokenKind :=
  [caret, times, slash, percent, plus, minus, and, or]

/-- The kinds with which an expression may end. -/
def lastKinds : List TokenKind :=
  [number, trueWord, falseWord, closeParen]

/-- The kinds of tokens of an expression, in a grammar without precedence. -/
inductive Derives : List TokenKind → Prop
  | number : Derives [number]
  | trueWord : Derives [trueWord]
  | falseWord : Derives [falseWord]
  | parenthesized {ks : List TokenKind} (h : Derives ks) : Derives (openParen :: ks ++ [closeParen])
  | unary {u : TokenKind} {ks : List TokenKind} (hu : u ∈ unaryKinds) (h : Derives ks) :
      Derives (u :: ks)
  | binary {b : TokenKind} {ks ls : List TokenKind} (hb : b ∈ binaryKinds) (hl : Derives ks)
      (hr : Derives ls) : Derives (ks ++ b :: ls)

/-- An expression ends here, so that what follows is no prefix operator. -/
def EndsExpression (ks : List TokenKind) : Prop :=
  ∃ k ∈ ks.getLast?, k ∈ lastKinds

/-- No root or square comes right behind a power sign, or right behind a sign or negation that is a
prefix operator. -/
def RootsApart (ks : List TokenKind) : Prop :=
  ∀ before k root after, ks = before ++ k :: root :: after → root = sqrWord ∨ root = sqrtWord →
    k ≠ caret ∧ (k = plus ∨ k = minus ∨ k = bang → EndsExpression before)

variable {k u b : TokenKind} {ks ls pre : List TokenKind}

theorem mem_unaryKinds : k ∈ unaryKinds ↔ k.unaryPrecedence? ≠ none := by
  cases k <;> decide

theorem mem_binaryKinds : k ∈ binaryKinds ↔ k.binaryPrecedence? ≠ none := by
  cases k <;> decide

theorem unaryPrecedence?_eq_some {q : Nat} (h : k.unaryPrecedence? = some q) :
    (k = plus ∨ k = minus ∨ k = bang) ∧ q = 7 ∨ (k = sqrWord ∨ k = sqrtWord) ∧ q = 5 := by
  cases k <;> simp_all [unaryPrecedence?]

theorem binaryPrecedence?_bounds {q : Nat} (h : k.binaryPrecedence? = some q) :
    0 < q ∧ q ≤ 7 ∧ (k ≠ caret → q ≤ 5) := by
  cases k <;> simp [binaryPrecedence?] at h ⊢ <;> omega

instance decidableEndsExpression (ks : List TokenKind) : Decidable (EndsExpression ks) :=
  inferInstanceAs (Decidable (∃ k ∈ ks.getLast?, k ∈ lastKinds))

theorem endsExpression_append (hls : ls ≠ []) : EndsExpression (ks ++ ls) ↔ EndsExpression ls := by
  obtain ⟨k, hk⟩ := Option.ne_none_iff_exists'.mp (mt List.getLast?_eq_none_iff.mp hls)
  simp [EndsExpression, List.getLast?_append, hk]

theorem not_endsExpression_operator (hk : k ∈ openParen :: (unaryKinds ++ binaryKinds)) :
    ¬ EndsExpression (ks ++ [k]) := by
  rw [endsExpression_append (List.cons_ne_nil k [])]
  rintro ⟨j, hj, hlast⟩
  obtain rfl : k = j := Option.some.inj hj
  revert hk hlast
  cases k <;> decide

theorem Expression.Proper.derives {e : Expression} (hp : e.Proper) :
    Derives (e.leaves.map (·.kind)) := by
  induction e with
  | literal t =>
    rw [leaves, List.map_singleton]
    rcases hp with hk | hk | hk
    · rw [hk]
      exact .number
    · rw [hk]
      exact .trueWord
    · rw [hk]
      exact .falseWord
  | unary op e ih => exact .unary (mem_unaryKinds.mpr hp.1) (ih hp.2)
  | binary l op r ihl ihr =>
    rw [leaves, List.map_append, List.map_cons]
    exact .binary (mem_binaryKinds.mpr hp.1) (ihl hp.2.1) (ihr hp.2.2)
  | parenthesized o e c ih =>
    obtain ⟨ho, hc, he⟩ := hp
    rw [leaves, List.map_append, List.map_cons, ho, List.map_singleton, hc]
    exact .parenthesized (ih he)

/-! ## The rule about roots in parts of a line -/

theorem RootsApart.left (h : RootsApart (ks ++ ls)) : RootsApart ks := by
  intro before k root after hks hroot
  refine h before k root (after ++ ls) ?_ hroot
  rw [hks, List.append_assoc]
  rfl

theorem RootsApart.right (h : RootsApart (pre ++ ks)) (hpre : ¬ EndsExpression pre) :
    RootsApart ks := by
  intro before k root after hks hroot
  obtain ⟨hcaret, hprefix⟩ := h (pre ++ before) k root after
    (by rw [hks, List.append_assoc]) hroot
  refine ⟨hcaret, fun hk => ?_⟩
  have hends := hprefix hk
  cases before with
  | nil => exact absurd (List.append_nil pre ▸ hends) hpre
  | cons k' before => exact (endsExpression_append (List.cons_ne_nil k' before)).mp hends

/-! ## A scan of the kinds -/

/-- What has to come next: an operand, in front of which no unary operator below `minimum` may stand,
or an operator behind an operand; `depth` parentheses are open. -/
inductive Scan where
  | operand (minimum depth : Nat)
  | operator (depth : Nat)

namespace Scan

/-- What has to come behind a token of the kind `k`, if it may stand here. -/
def step : Scan → TokenKind → Option Scan
  | operand minimum depth, k =>
    match k with
    | .number | .trueWord | .falseWord => some (operator depth)
    | .openParen => some (operand 0 (depth + 1))
    | k => (k.unaryPrecedence?.filter (minimum ≤ ·)).map (operand · depth)
  | operator depth, k =>
    match k with
    | .closeParen => if depth = 0 then none else some (operator (depth - 1))
    | k => k.binaryPrecedence?.map (operand · depth)

/-- What has to come behind tokens of the kinds `ks`, if they may stand here. -/
def run (s : Scan) (ks : List TokenKind) : Option Scan :=
  ks.foldlM step s

variable {s s' : Scan} {m d q u : Nat}

theorem step_literal (hk : k = number ∨ k = trueWord ∨ k = falseWord) :
    (operand m d).step k = some (operator d) := by
  rcases hk with rfl | rfl | rfl <;> rfl

theorem step_openParen (hk : k = openParen) : (operand m d).step k = some (operand 0 (d + 1)) := by
  rw [hk]
  rfl

theorem step_unary (hu : k.unaryPrecedence? = some u) (hm : m ≤ u) :
    (operand m d).step k = some (operand u d) := by
  have hfits : k.unaryPrecedence?.filter (m ≤ ·) = some u := by simp [hu, hm]
  have hstep : (operand m d).step k = (k.unaryPrecedence?.filter (m ≤ ·)).map (operand · d) := by
    rcases unaryPrecedence?_eq_some hu with ⟨rfl | rfl | rfl, -⟩ | ⟨rfl | rfl, -⟩ <;> rfl
  rw [hstep, hfits]
  rfl

theorem step_operand_cases (h : (operand m d).step k = some s) :
    (k = number ∨ k = trueWord ∨ k = falseWord) ∧ s = operator d ∨
      k = openParen ∧ s = operand 0 (d + 1) ∨
      ∃ u, k.unaryPrecedence? = some u ∧ m ≤ u ∧ s = operand u d := by
  simp only [step] at h
  split at h
  · exact .inl ⟨.inl rfl, (Option.some.inj h).symm⟩
  · exact .inl ⟨.inr (.inl rfl), (Option.some.inj h).symm⟩
  · exact .inl ⟨.inr (.inr rfl), (Option.some.inj h).symm⟩
  · exact .inr (.inl ⟨rfl, (Option.some.inj h).symm⟩)
  · obtain ⟨u, hu, rfl⟩ := Option.map_eq_some_iff.mp h
    obtain ⟨hu, hm⟩ := Option.filter_eq_some_iff.mp hu
    exact .inr (.inr ⟨u, hu, of_decide_eq_true hm, rfl⟩)

theorem step_closeParen (hk : k = closeParen) : (operator (d + 1)).step k = some (operator d) := by
  rw [hk]
  rfl

theorem step_binary (hq : k.binaryPrecedence? = some q) :
    (operator d).step k = some (operand q d) := by
  have hstep : (operator d).step k = k.binaryPrecedence?.map (operand · d) := by
    cases k <;> first | rfl | exact absurd hq nofun
  rw [hstep, hq]
  rfl

theorem step_operator_cases (h : (operator d).step k = some s) :
    (k = closeParen ∧ ∃ d', d = d' + 1 ∧ s = operator d') ∨
      ∃ q, k.binaryPrecedence? = some q ∧ s = operand q d := by
  simp only [step] at h
  split at h
  · cases d with
    | zero => exact absurd h nofun
    | succ d => exact .inl ⟨rfl, d, rfl, (Option.some.inj h).symm⟩
  · obtain ⟨q, hq, rfl⟩ := Option.map_eq_some_iff.mp h
    exact .inr ⟨q, hq, rfl⟩

theorem operand_ne_operator : operand m d ≠ operator q := by
  intro h
  cases h

theorem step_ending (s : Scan) : s.step ending = none := by
  cases s <;> rfl

theorem run_cons_eq_some : s.run (k :: ks) = some s' ↔ ∃ t, s.step k = some t ∧ t.run ks = some s' :=
  Option.bind_eq_some_iff

theorem run_append_eq_some :
    s.run (ks ++ ls) = some s' ↔ ∃ t, s.run ks = some t ∧ t.run ls = some s' := by
  rw [run, List.foldlM_append]
  exact Option.bind_eq_some_iff

theorem endsExpression_of_run (h : (operand m d).run ks = some (operator q)) :
    EndsExpression ks := by
  rcases List.eq_nil_or_concat ks with rfl | ⟨init, k, rfl⟩
  · exact absurd h nofun
  · rw [List.concat_eq_append] at h ⊢
    obtain ⟨t, -, hlast⟩ := run_append_eq_some.mp h
    obtain ⟨_, hstep, hnil⟩ := run_cons_eq_some.mp hlast
    obtain rfl := Option.some.inj hnil
    refine (endsExpression_append (List.cons_ne_nil k [])).mpr ⟨k, rfl, ?_⟩
    cases t with
    | operand m d =>
      rcases step_operand_cases hstep with ⟨rfl | rfl | rfl, -⟩ | ⟨-, h⟩ | ⟨u, -, -, h⟩
      all_goals first | decide | exact absurd h nofun
    | operator d =>
      rcases step_operator_cases hstep with ⟨rfl, -⟩ | ⟨q, -, h⟩
      all_goals first | decide | exact absurd h nofun

/-- A root or square comes where an operator of its precedence may stand in front. -/
theorem exists_of_step_root {root : TokenKind} (hroot : root = sqrWord ∨ root = sqrtWord)
    (h : s.step root = some s') : ∃ m d, s = operand m d ∧ m ≤ 5 := by
  have hu : root.unaryPrecedence? = some 5 := by rcases hroot with rfl | rfl <;> rfl
  cases s with
  | operand m d =>
    rcases step_operand_cases h with ⟨hk, -⟩ | ⟨hk, -⟩ | ⟨u, hu', hm, -⟩
    · rcases hroot with rfl | rfl <;> simp at hk
    · rcases hroot with rfl | rfl <;> simp at hk
    · obtain rfl : u = 5 := Option.some.inj (hu'.symm.trans hu)
      exact ⟨m, d, rfl, hm⟩
  | operator d => rcases hroot with rfl | rfl <;> simp [step, binaryPrecedence?] at h

/-- **The scan keeps roots apart.** -/
theorem rootsApart_of_run (h : (operand m d).run ks = some s) : RootsApart ks := by
  rintro before k root after rfl hroot
  obtain ⟨s₁, hbefore, h⟩ := run_append_eq_some.mp h
  obtain ⟨s₂, hk, h⟩ := run_cons_eq_some.mp h
  obtain ⟨s₃, hstep, -⟩ := run_cons_eq_some.mp h
  obtain ⟨m', d', rfl, hlow⟩ := exists_of_step_root hroot hstep
  cases s₁ with
  | operand m₁ d₁ =>
    rcases step_operand_cases hk with ⟨-, h⟩ | ⟨rfl, -⟩ | ⟨u, hu, -, h⟩
    · exact absurd h nofun
    · exact ⟨nofun, nofun⟩
    · obtain ⟨rfl, -⟩ := operand.inj h
      refine ⟨?_, ?_⟩
      · rintro rfl
        exact absurd hu nofun
      · rintro (rfl | rfl | rfl)
        all_goals
          obtain rfl := Option.some.inj hu
          exact absurd hlow (by decide)
  | operator d₁ =>
    rcases step_operator_cases hk with ⟨-, _, -, h⟩ | ⟨q, hq, h⟩
    · exact absurd h nofun
    · obtain ⟨rfl, -⟩ := operand.inj h
      refine ⟨?_, fun _ => endsExpression_of_run hbefore⟩
      rintro rfl
      obtain rfl := Option.some.inj hq
      exact absurd hlow (by decide)

/-- If a root or square comes first, it binds tightly enough. -/
def HeadFits (m : Nat) (ks : List TokenKind) : Prop :=
  ∀ root ∈ ks.head?, root = sqrWord ∨ root = sqrtWord → m ≤ 5

theorem run_literal (d : Nat) (hk : k = number ∨ k = trueWord ∨ k = falseWord) :
    (operand m d).run [k] = some (operator d) :=
  run_cons_eq_some.mpr ⟨_, step_literal hk, rfl⟩

/-- **The scan goes over every expression in which roots are apart.** -/
theorem run_of_derives (h : Derives ks) (hr : RootsApart ks) (hm : m ≤ 7) (hhead : HeadFits m ks)
    (d : Nat) : (operand m d).run ks = some (operator d) := by
  induction h generalizing m d with
  | number => exact run_literal d (.inl rfl)
  | trueWord => exact run_literal d (.inr (.inl rfl))
  | falseWord => exact run_literal d (.inr (.inr rfl))
  | @parenthesized ks h ih =>
    have hks : RootsApart ks :=
      (show RootsApart ([openParen] ++ ks ++ [closeParen]) from hr).left.right
        (@not_endsExpression_operator openParen [] (by decide))
    have hinner := @ih 0 hks (by omega) (fun _ _ _ => Nat.zero_le _) (d + 1)
    have hclose : (operator (d + 1)).run [closeParen] = some (operator d) :=
      run_cons_eq_some.mpr ⟨_, step_closeParen rfl, rfl⟩
    exact run_cons_eq_some.mpr ⟨_, step_openParen rfl,
      run_append_eq_some.mpr ⟨_, hinner, hclose⟩⟩
  | @unary u ks hu h ih =>
    obtain ⟨v, hv⟩ := Option.ne_none_iff_exists'.mp (mem_unaryKinds.mp hu)
    have hks : RootsApart ks := (show RootsApart ([u] ++ ks) from hr).right
      (@not_endsExpression_operator u [] (by simp [hu]))
    have hbounds : m ≤ v ∧ HeadFits v ks := by
      -- a sign binds more tightly than a root, which does not stand behind it
      rcases unaryPrecedence?_eq_some hv with ⟨hsign, rfl⟩ | ⟨hroot, rfl⟩
      · refine ⟨hm, fun root hmem hroot => ?_⟩
        obtain ⟨after, rfl⟩ := List.head?_eq_some_iff.mp hmem
        exact absurd ((hr [] u root after rfl hroot).2 hsign) (by decide)
      · exact ⟨hhead u rfl hroot, fun _ _ _ => Nat.le_refl 5⟩
    have hv7 : v ≤ 7 := by
      rcases unaryPrecedence?_eq_some hv with ⟨-, rfl⟩ | ⟨-, rfl⟩ <;> decide
    exact run_cons_eq_some.mpr ⟨_, step_unary hv hbounds.1,
      ih hks hv7 hbounds.2 d⟩
  | @binary b ks ls hb hl hr' ihl ihr =>
    obtain ⟨q, hq⟩ := Option.ne_none_iff_exists'.mp (mem_binaryKinds.mp hb)
    have hheadl : HeadFits m ks := by
      intro root hmem
      refine hhead root ?_
      rw [List.head?_append, Option.mem_def.mp hmem]
      rfl
    have hls : RootsApart ls :=
      (show RootsApart (ks ++ [b] ++ ls) from List.append_cons ks b ls ▸ hr).right
        (not_endsExpression_operator (by simp [hb]))
    have hheadr : HeadFits q ls := by
      intro root hmem hroot
      obtain ⟨after, rfl⟩ := List.head?_eq_some_iff.mp hmem
      exact (binaryPrecedence?_bounds hq).2.2 (hr ks b root after rfl hroot).1
    exact run_append_eq_some.mpr ⟨_, ihl hr.left hm hheadl d, run_cons_eq_some.mpr
      ⟨_, step_binary hq, ihr hls (binaryPrecedence?_bounds hq).2.1 hheadr d⟩⟩

end Scan

open Scan

theorem Expression.run_leaves {e : Expression} {m : Nat} (hs : e.Shaped m) (hp : e.Proper)
    (d : Nat) : (operand m d).run (e.leaves.map (·.kind)) = some (operator d) := by
  induction e generalizing m d with
  | literal t => exact run_literal d hp
  | unary op e ih =>
    obtain ⟨u, hu, hm, he⟩ := shaped_unary.mp hs
    exact run_cons_eq_some.mpr ⟨_, step_unary hu hm, ih he hp.2 d⟩
  | binary l op r ihl ihr =>
    obtain ⟨q, hq, -, hl, -, hr⟩ := shaped_binary.mp hs
    rw [leaves, List.map_append, List.map_cons]
    exact run_append_eq_some.mpr ⟨_, ihl hl hp.2.1 d, run_cons_eq_some.mpr
      ⟨_, step_binary hq, ihr hr hp.2.2 d⟩⟩
  | parenthesized o e c ih =>
    obtain ⟨ho, hc, he⟩ := hp
    have hclose : (operator (d + 1)).run [c.kind] = some (operator d) :=
      run_cons_eq_some.mpr ⟨_, step_closeParen hc, rfl⟩
    rw [leaves, List.map_append, List.map_cons]
    exact run_cons_eq_some.mpr ⟨_, step_openParen ho,
      run_append_eq_some.mpr ⟨_, ih (shaped_parenthesized.mp hs) he (d + 1), hclose⟩⟩

/-! ## Reading what the scan accepts -/

/-- The kinds of the tokens that are left. -/
def Parser.kinds (p : Parser) : List TokenKind :=
  p.rest.map (·.kind)

/-- Nothing but an expression that is complete is left. -/
def Parser.Accepted (p : Parser) (s : Scan) : Prop :=
  s.run p.kinds = some (operator 0)

/-- Where the scan stands when a task starts. -/
def Task.scan (d : Nat) : Task → Scan
  | nested m | operand m => .operand m d
  | chain _ _ _ => .operator d

section Reading

variable {limit : Option Nat} {t : Task} {p p' : Parser} {e : Expression} {h d m : Nat} {s s' : Scan}

open Reckoner.Parser

theorem Parser.Accepted.exists_step (hs : p.Accepted s) (hne : s ≠ .operator 0 ∨ p.rest ≠ []) :
    ∃ s', s.step p.current.kind = some s' ∧ p.advance.Accepted s' := by
  rw [Accepted, kinds] at hs
  cases hrest : p.rest with
  | nil =>
    rw [hrest] at hs
    exact absurd hrest (hne.resolve_left (not_not_intro (Option.some.inj hs)))
  | cons t ts =>
    obtain ⟨hcur, hadv⟩ := current_of_cons hrest
    rw [hrest] at hs
    rw [hcur, hadv]
    exact run_cons_eq_some.mp hs

theorem Parser.Accepted.advance (hs : p.Accepted s) (hstep : s.step p.current.kind = some s') :
    p.advance.Accepted s' := by
  have hrest : p.rest ≠ [] := by
    intro hrest
    rw [current, hrest] at hstep
    exact absurd (hstep.symm.trans (step_ending s)) (Option.some_ne_none s')
  obtain ⟨s'', hstep', hs'⟩ := hs.exists_step (.inr hrest)
  obtain rfl := Option.some.inj (hstep.symm.trans hstep')
  exact hs'

theorem Parser.binaryPrecedence?_ne_some (hend : p.binaryAt? 0 = none) (q : Nat) :
    p.current.kind.binaryPrecedence? ≠ some q := fun hq =>
  absurd (binaryAt?_eq_none.mp hend q hq) (Nat.not_le.mpr (binaryPrecedence?_bounds hq).1)

theorem Parser.Accepted.closeParen (hs : p.Accepted (.operator (d + 1)))
    (hend : p.binaryAt? 0 = none) :
    p.current.kind = closeParen ∧ p.advance.Accepted (.operator d) := by
  obtain ⟨s', hstep, hs'⟩ := hs.exists_step (.inl nofun)
  rcases step_operator_cases hstep with ⟨hk, d', hd, rfl⟩ | ⟨q, hq, -⟩
  · obtain rfl := Nat.succ.inj hd
    exact ⟨hk, hs'⟩
  · exact absurd hq (binaryPrecedence?_ne_some hend q)

theorem Parser.Accepted.rest_eq_nil (hs : p.Accepted (.operator 0)) (hend : p.binaryAt? 0 = none) :
    p.rest = [] := by
  refine Decidable.byContradiction fun hrest => ?_
  obtain ⟨s', hstep, -⟩ := hs.exists_step (.inr hrest)
  rcases step_operator_cases hstep with ⟨-, d', hd, -⟩ | ⟨q, hq, -⟩
  · exact absurd hd nofun
  · exact absurd hq (binaryPrecedence?_ne_some hend q)

theorem Parser.LeadsTo.abandoned_eq_false_left {more : List Diagnostic} (h : p.LeadsTo p' more)
    (hp : p'.abandoned = false) : p.abandoned = false := by
  rw [Bool.eq_false_iff]
  intro ha
  exact absurd ((h.abandoned ha).1.symm.trans hp) nofun

/-- **What the scan accepts is read without notes**, unless there are too many levels. -/
theorem Reads.silent_of_accepted (hr : Reads limit t p e h p') (hp : p'.abandoned = false)
    (hs : p.Accepted (t.scan d)) : p.LeadsTo p' [] ∧ p'.Accepted (.operator d) := by
  induction hr generalizing d with
  | shut hn => simp [abandon] at hp
  | @opened _ _ _ p p₁ p₂ _ _ hn hfirst hchain ihfirst ihchain =>
    obtain ⟨_, h₂⟩ := hchain.leadsTo
    obtain ⟨hl₁, hs₁⟩ := ihfirst (h₂.abandoned_eq_false_left hp) hs
    obtain ⟨hl₂, hs₂⟩ := ihchain hp hs₁
    exact ⟨((LeadsTo.enter p).trans (hl₁.trans hl₂)).trans (.leave p₂), hs₂⟩
  | @unary m q _ p p' e hq hinner ih =>
    obtain ⟨hu, hm⟩ := unaryAt?_eq_some.mp hq
    obtain ⟨hl, hs'⟩ := ih hp (hs.advance (step_unary hu hm))
    exact ⟨(LeadsTo.advance p).trans hl, hs'⟩
  | @parenthesized m _ p p' e hq hk hinner ih =>
    have hp' := (LeadsTo.expect .closeParen p').abandoned_eq_false_left hp
    obtain ⟨hl, hs'⟩ := ih hp' (hs.advance (step_openParen hk))
    obtain ⟨hc, hs'⟩ := hs'.closeParen (hinner.shaped trivial).2.2
    have hclose := LeadsTo.expect .closeParen p'
    rw [if_pos hc] at hclose
    refine ⟨(LeadsTo.advance p).trans (hl.trans hclose), ?_⟩
    rw [expect, if_pos hc]
    exact hs'
  | @truth m p hq hk =>
    exact ⟨.advance p, hs.advance (step_literal (.inr hk))⟩
  | @number m p hq ho ht hf =>
    obtain ⟨s', hstep, hs'⟩ := hs.exists_step (.inl operand_ne_operator)
    rcases step_operand_cases hstep with ⟨hk | hk | hk, rfl⟩ | ⟨hk, -⟩ | ⟨u, hu, hm, -⟩
    · have hnumber := LeadsTo.expect .number p
      rw [if_pos hk] at hnumber
      refine ⟨hnumber, ?_⟩
      rw [expect, if_pos hk]
      exact hs'
    · exact absurd hk ht
    · exact absurd hk hf
    · exact absurd hk ho
    · exact absurd ((unaryAt?_eq_some.mpr ⟨hu, hm⟩).symm.trans hq) (Option.some_ne_none u)
  | done hq => exact ⟨.of_eq rfl (List.suffix_refl _) rfl rfl, hs⟩
  | cut hq hn => simp [abandon] at hp
  | @link m q _ _ _ p p₁ p' left right _ hq hn hright hchain ihright ihchain =>
    obtain ⟨_, h₂⟩ := hchain.leadsTo
    obtain ⟨hq, -⟩ := binaryAt?_eq_some.mp hq
    have hp₁ := h₂.abandoned_eq_false_left hp
    obtain ⟨hl₁, hs₁⟩ := ihright hp₁ (hs.advance (step_binary hq))
    obtain ⟨hl₂, hs₂⟩ := ihchain hp hs₁
    exact ⟨(LeadsTo.advance p).trans (hl₁.trans hl₂), hs₂⟩

end Reading

/-! ## Whole lines -/

/-- Whether the line was given up for its levels. -/
def ParsedLine.tooDeep (l : ParsedLine) : Bool :=
  l.diagnostics.any fun d => d.complaint matches .nestedTooDeep _

theorem ParsedLine.complaint_ne_of_tooDeep {l : ParsedLine} (h : l.tooDeep = false) {d : Diagnostic}
    (hd : d ∈ l.diagnostics) (n : Nat) : d.complaint ≠ .nestedTooDeep n := by
  intro hn
  have hnot := Array.any_eq_false'.mp h d hd
  rw [hn] at hnot
  exact hnot rfl

theorem Parser.kind_ofString_ne_ending {line : String} {t : Token}
    (ht : t ∈ (Parser.ofString line).rest) : t.kind ≠ .ending := by
  have := (List.mem_filter.mp ht).2
  simp_all

theorem Parser.abandoned_of_tooDeep {limit : Option Nat} {p p' : Parser} {e : Expression} {h : Nat}
    (hr : Reads limit (.nested 0) p e h p') (hp : p.abandoned = false)
    (hdeep : (p.finish limit).tooDeep = false) : p'.abandoned = false := by
  rw [Bool.eq_false_iff]
  intro ha
  obtain ⟨more, hl⟩ := hr.leadsTo
  rcases hl.nestedTooDeep ha with ha | ⟨d, hd, n, hn⟩
  · exact absurd (ha.symm.trans hp) nofun
  · have hmem : d ∈ (p.finish limit).diagnostics := by
      rw [hr.finish_eq, ← Array.mem_toList_iff, (hl.trans (.expect .ending p')).diagnostics]
      exact List.mem_append_right _ (List.mem_append_left _ hd)
    exact ParsedLine.complaint_ne_of_tooDeep hdeep hmem n hn

theorem Parser.diagnostics_finish_of_accepted {limit : Option Nat} {p : Parser}
    (hp : p.abandoned = false) (hdeep : (p.finish limit).tooDeep = false)
    (hs : p.Accepted (.operand 0 0)) : (p.finish limit).diagnostics = p.diagnostics := by
  obtain ⟨e, h, p', hr⟩ := p.exists_reads limit 0
  obtain ⟨hsilent, hs'⟩ := hr.silent_of_accepted (abandoned_of_tooDeep hr hp hdeep) hs
  have hending : p'.current.kind = .ending := by
    rw [current, hs'.rest_eq_nil (hr.shaped trivial).2.2]
    rfl
  have hall := hsilent.trans (.expect .ending p')
  rw [if_pos hending] at hall
  rw [hr.finish_eq, ← Array.toList_inj, hall.diagnostics]
  exact List.append_nil _

/-- **The lines that are read without notes.** Unless a line is given up for its levels, the parser
adds no note to those of the lexer exactly if the kinds of its tokens are derivable and roots and
squares are apart from operators that bind tighter. -/
theorem silent_iff_derives (line : String) (hdeep : (ParsedLine.ofString line).tooDeep = false) :
    (ParsedLine.ofString line).diagnostics = (Parser.ofString line).diagnostics ↔
      Derives (Parser.ofString line).kinds ∧ RootsApart (Parser.ofString line).kinds := by
  constructor
  · intro hd
    obtain ⟨hs, hp, hleaves⟩ :=
      Parser.shaped_of_finish rfl (fun t ht => Parser.kind_ofString_ne_ending ht) hd
    rw [Parser.kinds, ← hleaves]
    exact ⟨hp.derives, rootsApart_of_run (Expression.run_leaves hs hp 0)⟩
  · rintro ⟨hderives, hapart⟩
    refine Parser.diagnostics_finish_of_accepted rfl hdeep ?_
    exact run_of_derives hderives hapart (Nat.zero_le 7) (fun _ _ _ => Nat.zero_le 5) 0

/-- A root behind a power sign is noted though the line is derivable. -/
theorem not_silent_power_root :
    (ParsedLine.ofString "2 ^ sqrt 4").diagnostics ≠ (Parser.ofString "2 ^ sqrt 4").diagnostics ∧
      Derives (Parser.ofString "2 ^ sqrt 4").kinds := by
  have hkinds : (Parser.ofString "2 ^ sqrt 4").kinds = [number, caret, sqrtWord, number] := by
    decide +kernel
  refine ⟨fun hd => ?_, ?_⟩
  · obtain ⟨-, hapart⟩ := (silent_iff_derives "2 ^ sqrt 4" (by decide +kernel)).mp hd
    rw [hkinds] at hapart
    exact (hapart [number] caret sqrtWord [number] rfl (.inr rfl)).1 rfl
  · rw [hkinds]
    exact .binary (by decide) .number (.unary (by decide) .number)

end Reckoner
