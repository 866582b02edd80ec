import Reckoner.Proofs.Expression.Levels

/-!
# The limit

What the limit on levels changes: nothing, as long as the tree that is read without it fits. Otherwise
what is read is cut from that tree, and its notes are a front part of the other ones and one more.

* `Reads.leadsOn`: without a limit nothing is noted but missing tokens.
* `GivenUp`: what a reading that is given up shares with one that is not.
* **`Reads.limited`**: a reading without the limit is one under it or is cut short by it.
* `Parser.finish_of_fits`, `Parser.finish_of_not_fits`: the same for what is left of a line.
-/

namespace Reckoner

open Reckoner.Parser Expression

variable {n d m : Nat} {t : Task} {p p₁ p' p'' q q' : Parser} {e f : Expression} {h : Nat}
  {more later : List Diagnostic}

/-! ## Readings without a limit -/

/-- The notes of a way are about tokens that are missing. -/
def Parser.LeadsOn (p p' : Parser) (more : List Diagnostic) : Prop :=
  p.LeadsTo p' more ∧ ∀ x ∈ more, ∃ actual expected, x.complaint = .unexpectedToken actual expected

theorem Parser.LeadsTo.leadsOn (h : p.LeadsTo p' []) : p.LeadsOn p' [] :=
  ⟨h, fun _ hx => absurd hx List.not_mem_nil⟩

theorem Parser.LeadsOn.trans (h : p.LeadsOn q more) (h' : q.LeadsOn p' later) :
    p.LeadsOn p' (more ++ later) :=
  ⟨h.1.trans h'.1, fun x hx => (List.mem_append.mp hx).elim (h.2 x) (h'.2 x)⟩

theorem Parser.LeadsOn.expect (kind : TokenKind) (p : Parser) : p.LeadsOn (p.expect kind).2
    (if p.current.kind = kind then [] else p.note (.unexpectedToken p.current.kind kind)) := by
  refine ⟨.expect kind p, fun x hx => ?_⟩
  split at hx
  · exact absurd hx List.not_mem_nil
  · exact ⟨_, _, congrArg Diagnostic.complaint (eq_of_mem_note hx)⟩

theorem Reads.leadsOn (hr : Reads none t p e h p') : ∃ more, p.LeadsOn p' more := by
  induction hr with
  | shut hn => exact absurd hn nofun
  | opened hn _ _ ihfirst ihchain =>
    obtain ⟨m₁, h₁⟩ := ihfirst
    obtain ⟨m₂, h₂⟩ := ihchain
    exact ⟨_, (LeadsTo.enter _).leadsOn.trans (h₁.trans (h₂.trans (LeadsTo.leave _).leadsOn))⟩
  | unary hq _ ih =>
    obtain ⟨m₁, h₁⟩ := ih
    exact ⟨_, (LeadsTo.advance _).leadsOn.trans h₁⟩
  | parenthesized hq hk _ ih =>
    obtain ⟨m₁, h₁⟩ := ih
    exact ⟨_, (LeadsTo.advance _).leadsOn.trans (h₁.trans (.expect _ _))⟩
  | truth hq hk => exact ⟨_, (LeadsTo.advance _).leadsOn⟩
  | number hq ho ht hf => exact ⟨_, .expect _ _⟩
  | done hq => exact ⟨_, (LeadsTo.of_eq rfl (List.suffix_refl _) rfl rfl).leadsOn⟩
  | cut hq hn => exact absurd hn nofun
  | link hq hn _ _ ihright ihchain =>
    obtain ⟨m₁, h₁⟩ := ihright
    obtain ⟨m₂, h₂⟩ := ihchain
    exact ⟨_, (LeadsTo.advance _).leadsOn.trans (h₁.trans h₂)⟩

theorem Parser.LeadsOn.abandoned (h : p.LeadsOn p' more) (hp : p.abandoned = false) :
    p'.abandoned = false := by
  rw [Bool.eq_false_iff]
  intro ha
  rcases h.1.nestedTooDeep ha with ha | ⟨x, hx, n, hn⟩
  · exact absurd (ha.symm.trans hp) nofun
  · obtain ⟨actual, expected, hc⟩ := h.2 x hx
    exact absurd (hn.symm.trans hc) nofun

/-! ## Lines that are given up -/

/-- From `p` a reading was given up on the way to `p'`. Up to there it noted what the reading to `q`
notes first, and then that it was given up. -/
structure GivenUp (n : Nat) (p p' q : Parser) : Prop where
  abandoned : p'.abandoned = true
  rest : p'.rest = []
  diagnostics : ∃ before after span,
    p'.diagnostics.toList = p.diagnostics.toList ++ (before ++ [⟨span, .nestedTooDeep n⟩]) ∧
    q.diagnostics.toList = p.diagnostics.toList ++ (before ++ after)

namespace GivenUp

theorem abandon (n : Nat) (hp : p.abandoned = false) (hq : p.LeadsTo q more) :
    GivenUp n p (p.abandon n) q where
  abandoned := rfl
  rest := rfl
  diagnostics := by
    refine ⟨[], more, p.current.span, ?_, hq.diagnostics⟩
    rw [(LeadsTo.abandon n p).diagnostics, note, hp]
    rfl

/-- What both readings share before one of them is given up. -/
theorem before (hp : p.LeadsTo p₁ more) (hg : GivenUp n p₁ p' q) : GivenUp n p p' q where
  abandoned := hg.abandoned
  rest := hg.rest
  diagnostics := by
    obtain ⟨before, after, span, hp', hq⟩ := hg.diagnostics
    refine ⟨more ++ before, after, span, ?_, ?_⟩
    · rw [hp', hp.diagnostics, List.append_assoc, List.append_assoc]
    · rw [hq, hp.diagnostics, List.append_assoc, List.append_assoc]

/-- What is given up stays so while the other reading goes on. -/
theorem after (hg : GivenUp n p p' q) (hp : p'.LeadsTo p'' more) (hq : q.LeadsTo q' later) :
    GivenUp n p p'' q' where
  abandoned := (hp.abandoned hg.abandoned).1
  rest := List.suffix_nil.mp (hg.rest ▸ hp.rest)
  diagnostics := by
    obtain ⟨before, after, span, hp', hq'⟩ := hg.diagnostics
    refine ⟨before, after ++ later, span, ?_, ?_⟩
    · rw [hp.diagnostics, (hp.abandoned hg.abandoned).2, List.append_nil, hp']
    · rw [hq.diagnostics, hq', List.append_assoc, List.append_assoc]

theorem done (hg : GivenUp n p p' q) {limit : Option Nat} :
    Reads limit (.chain m e h) p' e h p' := by
  refine .done ?_
  rw [binaryAt?, current, hg.rest]
  rfl

end GivenUp

/-! ## Readings with and without a limit -/

/-- How many of the open expressions a task belongs to: its own, unless it has yet to open it. -/
def Task.opened : Task → Nat
  | nested _ => 0
  | operand _ | chain _ _ _ => 1

/-- Before the task starts neither count has reached the limit. -/
def Task.Below (n d : Nat) : Task → Prop
  | nested _ => True
  | operand _ => d < n
  | chain _ left height => left.Fits n d ∧ height = left.height

/-- What is read already is the front of what is read. -/
def Task.Starts (f : Expression) : Task → Prop
  | chain _ left _ => left.Starts f
  | _ => True

theorem Reads.starts {limit : Option Nat} (hr : Reads limit t p f h p') : t.Starts f := by
  induction hr with
  | done hq => exact .refl
  | cut hq hn => exact .refl
  | link hq hn _ _ _ ihchain => exact Expression.Starts.left ihchain
  | _ => trivial

/-- What the limit makes of a reading that comes to `f` without it: a reading that is given up and comes
to what is left of `f`. -/
def CutShort (n d : Nat) (t : Task) (p : Parser) (f : Expression) (q : Parser) : Prop :=
  ∃ e h p' lost, Reads (some n) t p e h p' ∧ GivenUp n p p' q ∧ CutFrom n d lost e f

/-- **What the limit changes.** A reading without it that comes to a tree that fits is one under the
limit as well. If the tree does not fit, the reading under the limit is given up. -/
theorem Reads.limited (hr : Reads none t p f h q) (hp : p.abandoned = false)
    (hd : p.depth = d + t.opened) (ht : t.Below n d) :
    f.Fits n d ∧ Reads (some n) t p f h q ∨ CutShort n d t p f q := by
  induction hr generalizing d with
  | shut hn => exact absurd hn.symm (Option.some_ne_none _)
  | @opened m _ _ p p₁ p₂ left f hn hfirst hchain ihfirst ihchain =>
    obtain ⟨m₁, h₁⟩ := hfirst.leadsOn
    obtain ⟨m₂, h₂⟩ := hchain.leadsOn
    have hd : p.depth = d := hd
    -- the line is given up here, in the first operand, or at the operators behind it
    by_cases hdn : d < n
    · have hopen : reached? (some n) p.depth = none := reached?_of_lt (hd ▸ hdn)
      have henter : p.enter.depth = d + 1 := by rw [enter, hd]
      rcases ihfirst hp henter hdn with ⟨hfit, hr⟩ | ⟨e, k, p', lost, hr, hg, hcut⟩
      · have hp₁ := h₁.abandoned hp
        have hd₁ := hfirst.depth_eq.trans henter
        rcases ihchain hp₁ hd₁ ⟨hfit, hfirst.height_eq trivial⟩ with
          ⟨hfit, hr'⟩ | ⟨e, k, p', lost, hr', hg, hcut⟩
        · exact .inl ⟨hfit, .opened hopen hr hr'⟩
        · exact .inr ⟨e, k, _, lost, .opened hopen hr hr',
            (hg.after (.leave p') (.leave p₂)).before ((LeadsTo.enter p).trans h₁.1), hcut⟩
      · have hlater := h₂.1.trans (.leave p₂)
        exact .inr ⟨e, k, _, lost, .opened hopen hr hg.done,
          (hg.after (.leave p') hlater).before (.enter p), hcut.starts hdn hchain.starts⟩
    · have hall := (LeadsTo.enter p).trans (h₁.1.trans (h₂.1.trans (.leave p₂)))
      have hdn := Nat.le_of_not_lt hdn
      exact .inr ⟨_, _, _, _, .shut (reached?_of_le (hd ▸ hdn)), .abandon n hp hall,
        .operand _ hdn⟩
  | @unary m u _ p q e hq hinner ih =>
    rcases ih (d := d + 1) hp hd trivial with ⟨hfit, hr⟩ | ⟨e, k, p', lost, hr, hg, hcut⟩
    · exact .inl ⟨⟨ht, hfit⟩, .unary hq hr⟩
    · exact .inr ⟨_, _, _, lost, .unary hq hr, hg.before (.advance p), .unary ht hcut⟩
  | @parenthesized m _ p q e hq hk hinner ih =>
    rcases ih (d := d + 1) hp hd trivial with ⟨hfit, hr⟩ | ⟨e, k, p', lost, hr, hg, hcut⟩
    · exact .inl ⟨⟨ht, hfit⟩, .parenthesized hq hk hr⟩
    · have hclose : (p'.expect .closeParen).1 = .missing .closeParen p'.current.position := by
        rw [expect, if_neg]
        rw [current, hg.rest]
        exact fun hk => absurd (show TokenKind.ending = .closeParen from hk) (by decide)
      have hcut := CutFrom.parenthesized (o := p.current) (c := (q.expect .closeParen).1)
        p'.current.position ht hcut
      rw [← hclose] at hcut
      exact .inr ⟨_, _, _, lost, .parenthesized hq hk hr,
        (hg.after (.expect _ p') (.expect _ q)).before (.advance p), hcut⟩
  | truth hq hk => exact .inl ⟨ht, .truth hq hk⟩
  | number hq ho hw hf => exact .inl ⟨ht, .number hq ho hw hf⟩
  | done hq => exact .inl ⟨ht.1, .done hq⟩
  | cut hq hn => exact absurd hn.symm (Option.some_ne_none _)
  | @link m u k k₁ _ p p₁ q left right f hq hn hright hchain ihright ihchain =>
    obtain ⟨m₁, h₁⟩ := hright.leadsOn
    obtain ⟨m₂, h₂⟩ := hchain.leadsOn
    obtain ⟨hleft, rfl⟩ := ht
    -- the line is given up at this operator, in its right operand, or at the operators behind that
    by_cases hln : left.height < n
    · have hopen := reached?_of_lt hln
      rcases ihright (d := d + 1) hp hd trivial with
        ⟨hfit, hr⟩ | ⟨e, k, p', lost, hr, hg, hcut⟩
      · have hp₁ := ((LeadsTo.advance p).leadsOn.trans h₁).abandoned hp
        have hd₁ : p₁.depth = d + 1 := hright.depth_eq.trans hd
        have hnew : (Expression.binary left p.current right).Fits n d ∧
            max left.height k₁ + 1 = (Expression.binary left p.current right).height :=
          ⟨⟨hleft, hln, hfit⟩, by rw [hright.height_eq trivial, Expression.height]⟩
        rcases ihchain hp₁ hd₁ hnew with ⟨hfit, hr'⟩ | ⟨e, k, p', lost, hr', hg, hcut⟩
        · exact .inl ⟨hfit, .link hq hopen hr hr'⟩
        · exact .inr ⟨e, k, p', lost, .link hq hopen hr hr',
            hg.before ((LeadsTo.advance p).trans h₁.1), hcut⟩
      · exact .inr ⟨_, _, p', lost, .link hq hopen hr hg.done,
          (hg.after (.of_eq rfl (List.suffix_refl _) rfl rfl) h₂.1).before (.advance p),
          (CutFrom.right hleft hln hcut).starts hleft.lt hchain.starts⟩
    · have hall := (LeadsTo.advance p).trans (h₁.1.trans h₂.1)
      have hln := Nat.le_of_not_lt hln
      exact .inr ⟨_, _, _, none, .cut hq (reached?_of_le hln), .abandon n hp hall,
        (CutFrom.operator hleft hln).starts hleft.lt hchain.starts⟩

/-! ## Whole lines -/

theorem Parser.exists_notes_finish (p : Parser) : ∃ more,
    (p.finish none).diagnostics.toList = p.diagnostics.toList ++ more ∧
      ∀ x ∈ more, ∃ actual expected, x.complaint = .unexpectedToken actual expected := by
  obtain ⟨f, h, q, hr⟩ := p.exists_reads none 0
  obtain ⟨more, hl⟩ := hr.leadsOn
  obtain ⟨hl, hmore⟩ := hl.trans (.expect .ending q)
  rw [hr.finish_eq]
  exact ⟨_, hl.diagnostics, hmore⟩

/-- **A line whose tree fits is read as if there were no limit.** -/
theorem Parser.finish_of_fits (hp : p.abandoned = false)
    (hf : (p.finish none).root.Fits n p.depth) : p.finish (some n) = p.finish none := by
  obtain ⟨f, h, q, hr⟩ := p.exists_reads none 0
  rw [hr.finish_eq] at hf ⊢
  rcases hr.limited (n := n) hp rfl trivial with ⟨-, hr'⟩ | ⟨e, k, p', lost, -, -, hcut⟩
  · exact hr'.finish_eq
  · exact absurd hf hcut.not_fits

/-- **Of a line whose tree does not fit, a part is read**, and behind the notes on this part stands the
note that the line was given up. -/
theorem Parser.finish_of_not_fits (hp : p.abandoned = false)
    (hf : ¬ (p.finish none).root.Fits n p.depth) :
    (∃ lost, CutFrom n p.depth lost (p.finish (some n)).root (p.finish none).root) ∧
    ∃ before after span,
      (p.finish (some n)).diagnostics.toList =
        p.diagnostics.toList ++ (before ++ [⟨span, .nestedTooDeep n⟩]) ∧
      (p.finish none).diagnostics.toList = p.diagnostics.toList ++ (before ++ after) := by
  obtain ⟨f, h, q, hr⟩ := p.exists_reads none 0
  rw [hr.finish_eq] at hf ⊢
  rcases hr.limited (n := n) hp rfl trivial with ⟨hfit, -⟩ | ⟨e, k, p', lost, hr', hg, hcut⟩
  · exact absurd hfit hf
  · rw [hr'.finish_eq]
    exact ⟨⟨lost, hcut⟩, (hg.after (.expect .ending p') (.expect .ending q)).diagnostics⟩

end Reckoner
