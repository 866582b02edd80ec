import Reckoner.Proofs.Expression.Reading
import Reckoner.Proofs.Expression.Shape

/-!
# Reading by precedence

Reading by precedence and the shape of trees say the same. What is read is shaped above the minimum,
whatever is noted on the way; a reading without notes puts every token in a proper place and drops
none; and a proper, shaped tree is read from its leaves.

* `Reads.shaped`: what is read is shaped.
* `Reads.proper_of_silent`: without notes it is proper and has the tokens that were passed.
* **`Expression.passes`**, `Parser.finish_of_shaped`: a proper and shaped tree that fits the limit is
  read from its leaves.
* `Expression.eq_of_leaves_eq`: hence its leaves determine it.
-/

namespace Reckoner

open Reckoner.Parser Expression

variable {limit : Option Nat} {t : Task} {p p' : Parser} {e : Expression} {h : Nat}

/-- The operators down the right spine bind at least as tightly as the binary operator at a place,
if there is one. -/
def Parser.Above (p : Parser) (e : Expression) : Prop :=
  ∀ q, p.current.kind.binaryPrecedence? = some q → e.RightAtLeast q

theorem Parser.binaryAt?_eq_none {m : Nat} :
    p.binaryAt? m = none ↔ ∀ q, p.current.kind.binaryPrecedence? = some q → q ≤ m := by
  simp [binaryAt?]

theorem Parser.binaryAt?_eq_none_of_le {precedence? : Option Nat} {u : Nat}
    (hu : precedence? = some u)
    (hle : ∀ q, p.current.kind.binaryPrecedence? = some q → ∃ v, precedence? = some v ∧ q ≤ v) :
    p.binaryAt? u = none := by
  refine binaryAt?_eq_none.mpr fun q hq => ?_
  obtain ⟨v, hv, hle⟩ := hle q hq
  obtain rfl : u = v := Option.some.inj (hu.symm.trans hv)
  exact hle

theorem Parser.binaryAt?_eq_some {m q : Nat} :
    p.binaryAt? m = some q ↔ p.current.kind.binaryPrecedence? = some q ∧ m < q := by
  simp [binaryAt?]

theorem Parser.unaryAt?_eq_some {m q : Nat} :
    p.unaryAt? m = some q ↔ p.current.kind.unaryPrecedence? = some q ∧ m ≤ q := by
  simp [unaryAt?]

/-! ## What is read is shaped -/

/-- The precedence above which a task reads. -/
def Task.minimum : Task → Nat
  | nested m | operand m | chain m _ _ => m

/-- What a task takes to be read already: the left operand of the operators to come. -/
def Task.Ready (p : Parser) : Task → Prop
  | chain m left _ => left.Shaped m ∧ p.Above left
  | _ => True

/-- Where a task ends: an expression, unlike an operand, takes every operator that binds tightly
enough. -/
def Task.Ends (p : Parser) : Task → Prop
  | operand _ => True
  | nested m | chain m _ _ => p.binaryAt? m = none

/-- **What is read is shaped**, also where tokens are missing or the line is given up, and what
follows it binds less tightly than every operator on its right spine. -/
theorem Reads.shaped (hr : Reads limit t p e h p') (ht : t.Ready p) :
    e.Shaped t.minimum ∧ p'.Above e ∧ t.Ends p' := by
  induction hr with
  | shut hn => exact ⟨shaped_literal, fun _ _ => trivial, rfl⟩
  | opened hn _ _ ihfirst ihchain =>
    obtain ⟨hs, ha, -⟩ := ihfirst trivial
    exact ihchain ⟨hs, ha⟩
  | @unary m q _ p p' e hq _ ih =>
    obtain ⟨hs, ha, hend⟩ := ih trivial
    obtain ⟨hq, hm⟩ := unaryAt?_eq_some.mp hq
    refine ⟨shaped_unary.mpr ⟨q, hq, hm, hs⟩, fun q' hq' => ⟨⟨q, hq, ?_⟩, ha q' hq'⟩, trivial⟩
    exact binaryAt?_eq_none.mp hend q' hq'
  | parenthesized hq hk _ ih =>
    exact ⟨shaped_parenthesized.mpr (ih trivial).1, fun _ _ => trivial, trivial⟩
  | truth hq hk => exact ⟨shaped_literal, fun _ _ => trivial, trivial⟩
  | number hq ho ht hf => exact ⟨shaped_literal, fun _ _ => trivial, trivial⟩
  | done hq => exact ⟨ht.1, ht.2, hq⟩
  | cut hq hn => exact ⟨ht.1, fun q hq => absurd hq nofun, rfl⟩
  | @link m q _ _ _ p p₁ _ left right _ hq hn _ _ ihright ihchain =>
    obtain ⟨hs, ha, hend⟩ := ihright trivial
    obtain ⟨hq, hm⟩ := binaryAt?_eq_some.mp hq
    refine ihchain ⟨shaped_binary.mpr ⟨q, hq, hm, ht.1, ht.2 q hq, hs⟩, fun q' hq' => ?_⟩
    exact ⟨⟨q, hq, binaryAt?_eq_none.mp hend q' hq'⟩, ha q' hq'⟩

/-! ## Readings without notes -/

/-- The tokens of what is read already. -/
def Task.read : Task → List Token
  | chain _ left _ => left.leaves
  | _ => []

/-- What is read already is proper. -/
def Task.IsProper : Task → Prop
  | chain _ left _ => left.Proper
  | _ => True

theorem Parser.rest_eq_current_cons (hk : p.current.kind ≠ .ending) :
    p.rest = p.current :: p.advance.rest := by
  cases hrest : p.rest with
  | nil => simp [current, hrest, Token.ending, Token.missing] at hk
  | cons t ts => simp [current, advance, hrest]

theorem Parser.kind_of_expect {kind : TokenKind} (hp : p.abandoned = false)
    (h : p.LeadsTo (p.expect kind).2 []) :
    p.current.kind = kind ∧ p.expect kind = (p.current, p.advance) := by
  by_cases hk : p.current.kind = kind
  · exact ⟨hk, by simp [expect, hk]⟩
  · have := (LeadsTo.expect kind p).unique h
    simp [hk, note, hp] at this

theorem Parser.not_silent_abandon (n : Nat) (hp : p.abandoned = false) :
    ¬ p.LeadsTo (p.abandon n) [] := by
  intro h
  have := (LeadsTo.abandon n p).unique h
  simp [note, hp] at this

theorem Parser.LeadsTo.abandoned_eq_false (h : p.LeadsTo p' []) (hp : p.abandoned = false) :
    p'.abandoned = false := by
  rw [Bool.eq_false_iff]
  intro hc
  rcases h.nestedTooDeep hc with ha | ⟨d, hd, -⟩
  · simp [hp] at ha
  · exact absurd hd List.not_mem_nil

/-- **Without notes what is read is proper and drops no token.** -/
theorem Reads.proper_of_silent (hr : Reads limit t p e h p') (hp : p.abandoned = false)
    (hs : p.LeadsTo p' []) (ht : t.IsProper) :
    e.Proper ∧ t.read ++ p.rest = e.leaves ++ p'.rest := by
  induction hr with
  | shut hn => exact absurd hs (not_silent_abandon _ hp)
  | @opened _ _ _ p p₁ p₂ _ _ hn hfirst hchain ihfirst ihchain =>
    obtain ⟨m₁, h₁⟩ := hfirst.leadsTo
    obtain ⟨m₂, h₂⟩ := hchain.leadsTo
    obtain ⟨hs₁, hs₂⟩ := ((LeadsTo.enter p).trans h₁).silent (h₂.trans (.leave p₂)) hs
    obtain ⟨-, hs₁⟩ := (LeadsTo.enter p).silent h₁ hs₁
    have hp₁ := hs₁.abandoned_eq_false hp
    obtain ⟨he, hrest⟩ := ihfirst hp hs₁ trivial
    obtain ⟨he', hrest'⟩ := ihchain hp₁ (h₂.silent (.leave p₂) hs₂).1 he
    exact ⟨he', hrest.trans hrest'⟩
  | @unary m q _ p p' e hq hinner ih =>
    obtain ⟨m₁, h₁⟩ := hinner.leadsTo
    obtain ⟨-, hs₁⟩ := (LeadsTo.advance p).silent h₁ hs
    obtain ⟨he, hrest⟩ := ih hp hs₁ trivial
    obtain ⟨hq, -⟩ := unaryAt?_eq_some.mp hq
    refine ⟨⟨by simp [hq], he⟩, ?_⟩
    rw [rest_eq_current_cons (fun hk => by simp [hk, TokenKind.unaryPrecedence?] at hq)]
    exact congrArg (p.current :: ·) hrest
  | @parenthesized m _ p p' e hq hk hinner ih =>
    obtain ⟨m₁, h₁⟩ := hinner.leadsTo
    obtain ⟨hs₁, hs₂⟩ := ((LeadsTo.advance p).trans h₁).silent (.expect .closeParen p') hs
    have hs₁ := ((LeadsTo.advance p).silent h₁ hs₁).2
    obtain ⟨he, hrest⟩ := ih hp hs₁ trivial
    obtain ⟨hc, hclose⟩ := kind_of_expect (hs₁.abandoned_eq_false hp) hs₂
    have hrest' : p.advance.rest = e.leaves ++ p'.current :: p'.advance.rest := by
      rw [← rest_eq_current_cons (by simp [hc])]
      exact hrest
    rw [hclose, rest_eq_current_cons (p := p) (by simp [hk]), hrest']
    exact ⟨⟨hk, hc, he⟩, by simp [Task.read, leaves]⟩
  | @truth m p hq hk =>
    refine ⟨.inr hk, ?_⟩
    exact rest_eq_current_cons (by rcases hk with hk | hk <;> simp [hk])
  | @number m p hq ho ht hf =>
    obtain ⟨hk, hnumber⟩ := kind_of_expect hp hs
    rw [hnumber]
    exact ⟨.inl hk, rest_eq_current_cons (by simp [hk])⟩
  | done hq => exact ⟨ht, rfl⟩
  | cut hq hn => exact absurd hs (not_silent_abandon _ hp)
  | @link m q _ _ _ p p₁ p' left right _ hq hn hright hchain ihright ihchain =>
    obtain ⟨m₁, h₁⟩ := hright.leadsTo
    obtain ⟨m₂, h₂⟩ := hchain.leadsTo
    obtain ⟨hs₁, hs₂⟩ := ((LeadsTo.advance p).trans h₁).silent h₂ hs
    have hs₁ := ((LeadsTo.advance p).silent h₁ hs₁).2
    obtain ⟨hq, -⟩ := binaryAt?_eq_some.mp hq
    obtain ⟨he, hrest⟩ := ihright hp hs₁ trivial
    obtain ⟨he', hrest'⟩ := ihchain (hs₁.abandoned_eq_false hp) hs₂ ⟨by simp [hq], ht, he⟩
    refine ⟨he', ?_⟩
    rw [← hrest', Task.read, Task.read, leaves, List.append_assoc, List.cons_append, ← hrest,
      rest_eq_current_cons (p := p) (fun hk => by simp [hk, TokenKind.binaryPrecedence?] at hq)]
    rfl

/-! ## What is shaped is read -/

/-- The place behind the tokens that are in front of `rest`. -/
def Parser.behind (p : Parser) (rest : List Token) : Parser :=
  { p with rest }

theorem reached?_eq_none {count : Nat} (hn : ∀ n ∈ limit, count < n) :
    reached? limit count = none := by
  cases limit with
  | none => rfl
  | some n => simp [reached?, hn n rfl]

theorem Parser.current_of_cons {t : Token} {ts : List Token} (hp : p.rest = t :: ts) :
    p.current = t ∧ p.advance = p.behind ts := by
  simp [current, advance, behind, hp]

/-- An operand is read at a place, and with the operators behind it this comes to `e'`. -/
def Begins (limit : Option Nat) (m : Nat) (p : Parser) (e' : Expression) (h' : Nat) (p' : Parser) :
    Prop :=
  ∃ e h p₁, Reads limit (.operand m) p e h p₁ ∧ Reads limit (.chain m e h) p₁ e' h' p'

/-- The tokens of `e` are read inside `p.depth` open expressions, as long as no operator behind them
takes a part of `e` for itself: then what is read goes on with `e` for its left operand. -/
def Passes (limit : Option Nat) (e : Expression) : Prop :=
  ∀ ⦃m : Nat⦄ ⦃p : Parser⦄ ⦃rest : List Token⦄ ⦃e' : Expression⦄ ⦃h' : Nat⦄ ⦃p' : Parser⦄,
    e.Shaped m → p.rest = e.leaves ++ rest → (p.behind rest).Above e → 0 < p.depth →
    (∀ n ∈ limit, p.depth + e.height ≤ n + 1) →
    Reads limit (.chain m e e.height) (p.behind rest) e' h' p' → Begins limit m p e' h' p'

/-- Where the operators that follow bind less tightly, the reading of `e` ends behind its tokens. -/
theorem Passes.reads_nested {m : Nat} {rest : List Token} (he : Passes limit e) (hs : e.Shaped m)
    (hrest : p.rest = e.leaves ++ rest) (habove : (p.behind rest).Above e)
    (hend : (p.behind rest).binaryAt? m = none) (hn : ∀ n ∈ limit, p.depth + e.height ≤ n) :
    Reads limit (.nested m) p e e.height (p.behind rest) := by
  have hopen : reached? limit p.depth = none := by
    refine reached?_eq_none fun n hmem => ?_
    have := hn n hmem
    have := e.height_pos
    omega
  have hdepth : ∀ n ∈ limit, p.enter.depth + e.height ≤ n + 1 := by
    intro n hmem
    have := hn n hmem
    simp only [enter]
    omega
  obtain ⟨e₁, h₁, p₁, hfirst, hchain⟩ := @he m p.enter rest _ _ _ hs hrest habove
    (Nat.succ_pos _) hdepth (.done hend)
  exact .opened hopen hfirst hchain

theorem Parser.expect_of_cons {kind : TokenKind} {t : Token} {ts : List Token}
    (hp : p.rest = t :: ts) (ht : t.kind = kind) : p.expect kind = (t, p.behind ts) := by
  obtain ⟨hcur, hadv⟩ := current_of_cons hp
  simp [expect, hcur, hadv, ht]

/-- **The tokens of a proper tree are read as that tree**, by induction on the tree: the left operand
of a binary operator goes first, and the operator is the one that its reading goes on with. -/
theorem Expression.passes (hp : e.Proper) : Passes limit e := by
  induction e with
  | literal t =>
    intro m p rest e' h' p' hs hrest habove hpos hn hchain
    obtain ⟨hcur, hadv⟩ := current_of_cons hrest
    refine ⟨literal t, 1, p.behind rest, ?_, hchain⟩
    have hq : p.unaryAt? m = none := by
      rcases hp with hk | hk | hk <;> simp [unaryAt?, hcur, hk, TokenKind.unaryPrecedence?]
    rcases hp with hk | hk
    · have := @Reads.number limit m p hq (by simp [hcur, hk]) (by simp [hcur, hk])
        (by simp [hcur, hk])
      rwa [expect_of_cons hrest hk] at this
    · have := @Reads.truth limit m p hq (by rwa [hcur])
      rwa [hcur, hadv] at this
  | unary op e ih =>
    intro m p rest e' h' p' hs hrest habove hpos hn hchain
    obtain ⟨hcur, hadv⟩ := current_of_cons hrest
    obtain ⟨u, hu, hm, he⟩ := shaped_unary.mp hs
    -- an operator that follows the operand binds less tightly, and ends it
    have hend : (p.behind rest).binaryAt? u = none :=
      binaryAt?_eq_none_of_le hu fun q hq => (habove q hq).1
    have hdepth : ∀ n ∈ limit, p.depth + e.height ≤ n := by
      intro n hmem
      have := hn n hmem
      simp only [height] at this
      omega
    have hinner := (ih hp.2).reads_nested (p := p.advance) he (by rw [hadv]; rfl)
      (fun q hq => (habove q hq).2) hend hdepth
    have := @Reads.unary limit m u _ p _ e (unaryAt?_eq_some.mpr ⟨by rw [hcur, hu], hm⟩) hinner
    rw [hcur] at this
    exact ⟨unary op e, _, _, this, hchain⟩
  | binary l op r ihl ihr =>
    intro m p rest e' h' p' hs hrest habove hpos hn hchain
    obtain ⟨q, hq, hm, hl, hlr, hr⟩ := shaped_binary.mp hs
    have hrest' : p.rest = l.leaves ++ op :: (r.leaves ++ rest) := by
      rw [hrest, leaves, List.append_assoc, List.cons_append]
    have hheight : ∀ n ∈ limit, p.depth + max l.height r.height ≤ n := by
      intro n hmem
      have := hn n hmem
      simp only [height] at this
      omega
    have hend : (p.behind rest).binaryAt? q = none :=
      binaryAt?_eq_none_of_le hq fun q' hq' => (habove q' hq').1
    have hright := (ihr hp.2.2).reads_nested (p := p.behind (r.leaves ++ rest)) hr rfl
      (fun q' hq' => (habove q' hq').2) hend (fun n hmem => by
        have := hheight n hmem
        simp only [behind]
        omega)
    have hopen : reached? limit l.height = none := by
      refine reached?_eq_none fun n hmem => ?_
      have := hheight n hmem
      omega
    -- the left operand is read first, and this operator is the first of those behind it
    refine ihl hp.2.1 hl hrest' (fun q' hq' => ?_) hpos (fun n hmem => ?_)
      (.link (binaryAt?_eq_some.mpr ⟨hq, hm⟩) hopen hright hchain)
    · obtain rfl : q = q' := Option.some.inj (hq.symm.trans hq')
      exact hlr
    · have := hheight n hmem
      omega
  | parenthesized o e c ih =>
    intro m p rest e' h' p' hs hrest habove hpos hn hchain
    obtain ⟨ho, hc, he⟩ := hp
    have hrest' : p.rest = o :: (e.leaves ++ c :: rest) := by
      simp [hrest, leaves]
    obtain ⟨hcur, hadv⟩ := current_of_cons hrest'
    have hclose : (p.behind (c :: rest)).current.kind.binaryPrecedence? = none := by
      simp [behind, current, hc, TokenKind.binaryPrecedence?]
    have hdepth : ∀ n ∈ limit, p.depth + e.height ≤ n := by
      intro n hmem
      have := hn n hmem
      simp only [height] at this
      omega
    have hinner := (ih he).reads_nested (p := p.advance) (shaped_parenthesized.mp hs)
      (by rw [hadv]; rfl) (fun q hq => absurd (hq.symm.trans hclose) (Option.some_ne_none q))
      (binaryAt?_eq_none.mpr fun q hq => absurd (hq.symm.trans hclose) (Option.some_ne_none q))
      hdepth
    have := @Reads.parenthesized limit m _ p _ e
      (by simp [unaryAt?, hcur, ho, TokenKind.unaryPrecedence?]) (by rw [hcur, ho]) hinner
    rw [hcur, expect_of_cons (p := p.advance.behind (c :: rest)) rfl hc] at this
    exact ⟨parenthesized o e c, _, _, this, hchain⟩

/-! ## Whole lines -/

theorem Reads.finish_eq (hr : Reads limit (.nested 0) p e h p') : p.finish limit =
    { root := e
      ending := (p'.expect .ending).1
      diagnostics := (p'.expect .ending).2.diagnostics } := by
  obtain ⟨rfl, rfl, rfl⟩ : _ ∧ _ ∧ _ := by simpa [Task.result] using hr.result_eq
  rfl

theorem Parser.exists_reads (limit : Option Nat) (m : Nat) (p : Parser) :
    ∃ e h p', Reads limit (.nested m) p e h p' :=
  ⟨_, _, _, (Task.nested m).isRead limit p⟩

theorem Parser.exists_diagnostics_finish (limit : Option Nat) (p : Parser) :
    ∃ more, (p.finish limit).diagnostics.toList = p.diagnostics.toList ++ more := by
  obtain ⟨e, h, p', hr⟩ := p.exists_reads limit 0
  obtain ⟨more, hl⟩ := hr.leadsTo
  rw [hr.finish_eq]
  exact ⟨_, (hl.trans (.expect .ending p')).diagnostics⟩

/-- **What is shaped is what is read.** A proper and shaped tree that fits the limit is what its
tokens are read as, and nothing is noted. -/
theorem Parser.finish_of_shaped (hs : e.Shaped 0) (hp : e.Proper) (hrest : p.rest = e.leaves)
    (hn : ∀ n ∈ limit, p.depth + e.height ≤ n) :
    p.finish limit = { root := e, ending := .ending p.stop, diagnostics := p.diagnostics } := by
  have hr : Reads limit (.nested 0) p e e.height (p.behind []) := by
    refine (e.passes hp).reads_nested hs (by simp [hrest]) (fun q hq => ?_) ?_ hn
    · exact absurd hq nofun
    · rfl
  exact hr.finish_eq

/-- **What is read without notes is shaped and proper**, and its tokens are those that were left. -/
theorem Parser.shaped_of_finish (ha : p.abandoned = false)
    (hending : ∀ t ∈ p.rest, t.kind ≠ .ending)
    (hd : (p.finish limit).diagnostics = p.diagnostics) :
    (p.finish limit).root.Shaped 0 ∧ (p.finish limit).root.Proper ∧
      (p.finish limit).root.leaves = p.rest := by
  obtain ⟨e, h, p', hr⟩ := p.exists_reads limit 0
  rw [hr.finish_eq] at hd ⊢
  obtain ⟨m₁, h₁⟩ := hr.leadsTo
  have hall := h₁.trans (.expect .ending p')
  have hsilent : p.LeadsTo (p'.expect .ending).2 [] := by
    have hmore := hall.diagnostics
    rw [show (p'.expect .ending).2.diagnostics = p.diagnostics from hd] at hmore
    rwa [List.self_eq_append_right.mp hmore] at hall
  obtain ⟨hs₁, hs₂⟩ := h₁.silent (.expect .ending p') hsilent
  obtain ⟨hp, hrest⟩ := hr.proper_of_silent ha hs₁ trivial
  refine ⟨(hr.shaped trivial).1, hp, ?_⟩
  obtain ⟨hk, -⟩ := kind_of_expect (hs₁.abandoned_eq_false ha) hs₂
  -- the end is found behind the last token, since it is no token of the line
  have hnil : p'.rest = [] := by
    rcases hcons : p'.rest with _ | ⟨t, ts⟩
    · rfl
    · have hmem : t ∈ p.rest := hs₁.rest.subset (by simp [hcons])
      rw [(current_of_cons hcons).1] at hk
      exact absurd hk (hending t hmem)
  rw [hnil, List.append_nil] at hrest
  exact hrest.symm

/-- **The tokens of a proper and shaped tree determine it.** -/
theorem Expression.eq_of_leaves_eq {e₁ e₂ : Expression} (hs₁ : e₁.Shaped 0) (hp₁ : e₁.Proper)
    (hs₂ : e₂.Shaped 0) (hp₂ : e₂.Proper) (h : e₁.leaves = e₂.leaves) : e₁ = e₂ := by
  let p : Parser := { rest := e₁.leaves, stop := 0 }
  have h₁ := @finish_of_shaped none p e₁ hs₁ hp₁ rfl nofun
  have h₂ := @finish_of_shaped none p e₂ hs₂ hp₂ h nofun
  exact congrArg ParsedLine.root (h₁.symm.trans h₂)

end Reckoner
