import Reckoner.Expression.Parser

/-!
# Readings

The three functions that read expressions call each other; here their calls are one relation with a
rule for each way that a call can go, so that a fact about all readings is one induction.

* `Reads`: the relation; `Reads.result_eq`, `Task.isRead`: it is what the functions compute.
* `Parser.LeadsTo`, `Reads.leadsTo`: notes are kept, a line that was given up stays so, and it is not
  given up without a note.
-/

namespace Reckoner

/-- What is to be read: an expression above a minimum, its first operand, or the operators behind
an expression of a known height. -/
inductive Task where
  | nested (minimum : Nat)
  | operand (minimum : Nat)
  | chain (minimum : Nat) (left : Expression) (height : Nat)

/-- What a task comes to: an expression, its height, and the place behind it. -/
def Task.result (limit : Option Nat) : Task → Parser → Expression × Nat × Parser
  | nested minimum, p =>
    let whole := Parser.nested limit minimum p
    (whole.expression, whole.height, whole.after)
  | operand minimum, p =>
    let first := Parser.operand limit minimum p
    (first.expression, first.height, first.after)
  | chain minimum left height, p =>
    let whole := Parser.chain limit minimum left height p
    (whole.expression, whole.height, whole.after)

open Reckoner.Parser

/-- `Reads limit t p e h after`: at the place `p` the task `t` comes to the expression `e`, taken to
be `h` levels high, and to the place `after`. -/
inductive Reads (limit : Option Nat) : Task → Parser → Expression → Nat → Parser → Prop
  /-- No expression is opened at the limit. -/
  | shut {m n : Nat} {p : Parser} (hn : reached? limit p.depth = some n) :
      Reads limit (.nested m) p (.literal (.missing .number p.current.position)) 1 (p.abandon n)
  /-- An expression is an operand and the operators behind it. -/
  | opened {m h h' : Nat} {p p' p'' : Parser} {e e' : Expression}
      (hn : reached? limit p.depth = none) (hfirst : Reads limit (.operand m) p.enter e h p')
      (hchain : Reads limit (.chain m e h) p' e' h' p'') :
      Reads limit (.nested m) p e' h' p''.leave
  /-- A unary operator and what it applies to. -/
  | unary {m q h : Nat} {p p' : Parser} {e : Expression} (hq : p.unaryAt? m = some q)
      (hinner : Reads limit (.nested q) p.advance e h p') :
      Reads limit (.operand m) p (.unary p.current e) (h + 1) p'
  /-- An expression in parentheses. -/
  | parenthesized {m h : Nat} {p p' : Parser} {e : Expression} (hq : p.unaryAt? m = none)
      (hk : p.current.kind = .openParen) (hinner : Reads limit (.nested 0) p.advance e h p') :
      Reads limit (.operand m) p (.parenthesized p.current e (p'.expect .closeParen).1) (h + 1)
        (p'.expect .closeParen).2
  /-- One of the words for truth values. -/
  | truth {m : Nat} {p : Parser} (hq : p.unaryAt? m = none)
      (hk : p.current.kind = .trueWord ∨ p.current.kind = .falseWord) :
      Reads limit (.operand m) p (.literal p.current) 1 p.advance
  /-- A number; everything else counts as one that is missing. -/
  | number {m : Nat} {p : Parser} (hq : p.unaryAt? m = none) (ho : p.current.kind ≠ .openParen)
      (ht : p.current.kind ≠ .trueWord) (hf : p.current.kind ≠ .falseWord) :
      Reads limit (.operand m) p (.literal (p.expect .number).1) 1 (p.expect .number).2
  /-- No operator follows that binds tightly enough. -/
  | done {m h : Nat} {p : Parser} {e : Expression} (hq : p.binaryAt? m = none) :
      Reads limit (.chain m e h) p e h p
  /-- No operator is applied at the limit. -/
  | cut {m q n h : Nat} {p : Parser} {e : Expression} (hq : p.binaryAt? m = some q)
      (hn : reached? limit h = some n) : Reads limit (.chain m e h) p e h (p.abandon n)
  /-- An operator and its right operand become part of the left operand of what follows. -/
  | link {m q h h₁ h' : Nat} {p p₁ p' : Parser} {e r e' : Expression}
      (hq : p.binaryAt? m = some q) (hn : reached? limit h = none)
      (hright : Reads limit (.nested q) p.advance r h₁ p₁)
      (hchain : Reads limit (.chain m (.binary e p.current r) (max h h₁ + 1)) p₁ e' h' p') :
      Reads limit (.chain m e h) p e' h' p'

variable {limit : Option Nat} {t : Task} {p p' : Parser} {e : Expression} {h : Nat}

/-! ## The rules and the functions -/

section Rules

variable {m n q h' h₁ : Nat} {p'' p₁ : Parser} {e' r : Expression}

theorem Task.result_shut (hn : reached? limit p.depth = some n) :
    (nested m).result limit p =
      (.literal (.missing .number p.current.position), 1, p.abandon n) := by
  simp [result, Parser.nested, hn]

theorem Task.result_opened (hn : reached? limit p.depth = none)
    (hfirst : (operand m).result limit p.enter = (e, h, p'))
    (hchain : (chain m e h).result limit p' = (e', h', p'')) :
    (nested m).result limit p = (e', h', p''.leave) := by
  obtain ⟨rfl, rfl, rfl⟩ : _ ∧ _ ∧ _ := by simpa [result] using hfirst
  obtain ⟨rfl, rfl, rfl⟩ : _ ∧ _ ∧ _ := by simpa [result] using hchain
  simp [result, Parser.nested, hn]

theorem Task.result_unary (hq : p.unaryAt? m = some q)
    (hinner : (nested q).result limit p.advance = (e, h, p')) :
    (operand m).result limit p = (.unary p.current e, h + 1, p') := by
  obtain ⟨rfl, rfl, rfl⟩ : _ ∧ _ ∧ _ := by simpa [result] using hinner
  rw [result, Parser.operand]
  split
  · next q' hq' =>
    obtain rfl : q' = q := Option.some.inj (hq'.symm.trans hq)
    rfl
  · next hq' => exact absurd (hq.symm.trans hq') (Option.some_ne_none q)

theorem Task.result_parenthesized (hq : p.unaryAt? m = none) (hk : p.current.kind = .openParen)
    (hinner : (nested 0).result limit p.advance = (e, h, p')) :
    (operand m).result limit p =
      (.parenthesized p.current e (p'.expect .closeParen).1, h + 1, (p'.expect .closeParen).2) := by
  obtain ⟨rfl, rfl, rfl⟩ : _ ∧ _ ∧ _ := by simpa [result] using hinner
  rw [result, Parser.operand]
  split
  · next q' hq' => exact absurd (hq'.symm.trans hq) (Option.some_ne_none q')
  · split <;> simp_all

theorem Task.result_truth (hq : p.unaryAt? m = none)
    (hk : p.current.kind = .trueWord ∨ p.current.kind = .falseWord) :
    (operand m).result limit p = (.literal p.current, 1, p.advance) := by
  rw [result, Parser.operand]
  split
  · next q' hq' => exact absurd (hq'.symm.trans hq) (Option.some_ne_none q')
  · split <;> simp_all

theorem Task.result_number (hq : p.unaryAt? m = none) (ho : p.current.kind ≠ .openParen)
    (ht : p.current.kind ≠ .trueWord) (hf : p.current.kind ≠ .falseWord) :
    (operand m).result limit p =
      (.literal (p.expect .number).1, 1, (p.expect .number).2) := by
  rw [result, Parser.operand]
  split
  · next q' hq' => exact absurd (hq'.symm.trans hq) (Option.some_ne_none q')
  · split <;> simp_all

theorem Task.result_done (hq : p.binaryAt? m = none) :
    (chain m e h).result limit p = (e, h, p) := by
  rw [result, Parser.chain]
  split
  · rfl
  · next q' hq' => exact absurd (hq'.symm.trans hq) (Option.some_ne_none q')

theorem Task.result_cut (hq : p.binaryAt? m = some q) (hn : reached? limit h = some n) :
    (chain m e h).result limit p = (e, h, p.abandon n) := by
  rw [result, Parser.chain]
  split
  · next hq' => exact absurd (hq.symm.trans hq') (Option.some_ne_none q)
  · simp [hn]

theorem Task.result_link (hq : p.binaryAt? m = some q) (hn : reached? limit h = none)
    (hright : (nested q).result limit p.advance = (r, h₁, p₁))
    (hchain : (chain m (.binary e p.current r) (max h h₁ + 1)).result limit p₁ = (e', h', p')) :
    (chain m e h).result limit p = (e', h', p') := by
  obtain ⟨rfl, rfl, rfl⟩ : _ ∧ _ ∧ _ := by simpa [result] using hright
  obtain ⟨rfl, rfl, rfl⟩ : _ ∧ _ ∧ _ := by simpa [result] using hchain
  rw [result, Parser.chain]
  split
  · next hq' => exact absurd (hq.symm.trans hq') (Option.some_ne_none q)
  · next q' hq' =>
    obtain rfl : q' = q := Option.some.inj (hq'.symm.trans hq)
    simp [hn]

end Rules

theorem Reads.result_eq (hr : Reads limit t p e h p') : t.result limit p = (e, h, p') := by
  induction hr with
  | shut hn => exact Task.result_shut hn
  | opened hn _ _ ihfirst ihchain => exact Task.result_opened hn ihfirst ihchain
  | unary hq _ ih => exact Task.result_unary hq ih
  | parenthesized hq hk _ ih => exact Task.result_parenthesized hq hk ih
  | truth hq hk => exact Task.result_truth hq hk
  | number hq ho ht hf => exact Task.result_number hq ho ht hf
  | done hq => exact Task.result_done hq
  | cut hq hn => exact Task.result_cut hq hn
  | link hq hn _ _ ihright ihchain => exact Task.result_link hq hn ihright ihchain

/-- A task has a reading with the given result. -/
def Task.IsRead (limit : Option Nat) (t : Task) (p : Parser) : Prop :=
  Reads limit t p (t.result limit p).1 (t.result limit p).2.1 (t.result limit p).2.2

theorem Task.IsRead.of_reads {t : Task} (hr : Reads limit t p e h p')  : t.IsRead limit p := by
  rw [IsRead, hr.result_eq]
  exact hr

theorem Task.isRead (limit : Option Nat) (t : Task) (p : Parser) : t.IsRead limit p := by
  have all := nested.mutual_induct limit (fun m p => (nested m).IsRead limit p)
    (fun m e h p => (chain m e h).IsRead limit p) (fun m p => (operand m).IsRead limit p)
    (fun m p n hn => .of_reads (.shut hn))
    (by
      intro m p hn first ihfirst _ ihchain
      exact .of_reads (.opened hn ihfirst ihchain))
    (fun m e h p hq => .of_reads (.done hq))
    (fun m e h p q hq n hn => .of_reads (.cut hq hn))
    (by
      intro m e h p q hq hn right ihright _ ihchain
      exact .of_reads (.link hq hn ihright ihchain))
    (fun m p q hq ih => .of_reads (.unary hq ih))
    (fun m p hq hk ih => .of_reads (.parenthesized hq hk ih))
    (fun m p hq hk => .of_reads (.truth hq (.inl hk)))
    (fun m p hq hk => .of_reads (.truth hq (.inr hk)))
    (fun m p hq ho ht hf => .of_reads (.number hq ho ht hf))
  cases t with
  | nested m => exact all.1 m p
  | operand m => exact all.2.2 m p
  | chain m e h => exact all.2.1 m e h p

/-! ## How one place leads to another -/

namespace Parser

/-- The complaint about the token at a place, unless the line was given up. -/
def note (complaint : Complaint) (p : Parser) : List Diagnostic :=
  if p.abandoned then [] else [⟨p.current.span, complaint⟩]

theorem eq_of_mem_note {complaint : Complaint} {p : Parser} {d : Diagnostic}
    (hd : d ∈ p.note complaint) : d = ⟨p.current.span, complaint⟩ := by
  unfold note at hd
  split at hd
  · exact absurd hd List.not_mem_nil
  · exact List.mem_singleton.mp hd

/-- What every reading keeps: what was noted stays noted, the rest of the line is cut from the
front, and a line that was given up stays so without further notes. It is given up with a note. -/
structure LeadsTo (p p' : Parser) (more : List Diagnostic) : Prop where
  diagnostics : p'.diagnostics.toList = p.diagnostics.toList ++ more
  rest : p'.rest <:+ p.rest
  stop : p'.stop = p.stop
  abandoned : p.abandoned = true → p'.abandoned = true ∧ more = []
  nestedTooDeep : p'.abandoned = true → p.abandoned = true ∨
    ∃ d ∈ more, ∃ n, d.complaint = .nestedTooDeep n

namespace LeadsTo

variable {a b c p : Parser} {more later : List Diagnostic}

theorem trans (hab : a.LeadsTo b more) (hbc : b.LeadsTo c later) : a.LeadsTo c (more ++ later) where
  diagnostics := by rw [hbc.diagnostics, hab.diagnostics, List.append_assoc]
  rest := hbc.rest.trans hab.rest
  stop := hbc.stop.trans hab.stop
  abandoned ha := by
    obtain ⟨hb, rfl⟩ := hab.abandoned ha
    exact hbc.abandoned hb
  nestedTooDeep hc := by
    rcases hbc.nestedTooDeep hc with hb | ⟨d, hd, hn⟩
    · rcases hab.nestedTooDeep hb with ha | ⟨d, hd, hn⟩
      · exact .inl ha
      · exact .inr ⟨d, List.mem_append_left _ hd, hn⟩
    · exact .inr ⟨d, List.mem_append_right _ hd, hn⟩

theorem unique (h : a.LeadsTo b more) (h' : a.LeadsTo b later) : more = later :=
  List.append_cancel_left (h.diagnostics.symm.trans h'.diagnostics)

theorem silent (hab : a.LeadsTo b more) (hbc : b.LeadsTo c later) (hac : a.LeadsTo c []) :
    a.LeadsTo b [] ∧ b.LeadsTo c [] := by
  obtain ⟨rfl, rfl⟩ := List.append_eq_nil_iff.mp ((hab.trans hbc).unique hac)
  exact ⟨hab, hbc⟩

theorem of_eq (hd : b.diagnostics = a.diagnostics) (hr : b.rest <:+ a.rest) (hs : b.stop = a.stop)
    (ha : b.abandoned = a.abandoned) : a.LeadsTo b [] where
  diagnostics := by rw [hd, List.append_nil]
  rest := hr
  stop := hs
  abandoned h := ⟨ha.trans h, rfl⟩
  nestedTooDeep h := .inl (ha.symm.trans h)

theorem enter (p : Parser) : p.LeadsTo p.enter [] :=
  of_eq rfl (List.suffix_refl _) rfl rfl

theorem leave (p : Parser) : p.LeadsTo p.leave [] :=
  of_eq rfl (List.suffix_refl _) rfl rfl

theorem advance (p : Parser) : p.LeadsTo p.advance [] :=
  of_eq rfl (List.tail_suffix _) rfl rfl

theorem report (complaint : Complaint) (p : Parser) :
    p.LeadsTo (p.report complaint) (p.note complaint) := by
  unfold Parser.report note
  split
  · exact of_eq rfl (List.suffix_refl _) rfl rfl
  · next hp => exact ⟨Array.toList_push, List.suffix_refl _, rfl, fun h => absurd h hp, .inl⟩

theorem expect (kind : TokenKind) (p : Parser) : p.LeadsTo (p.expect kind).2
    (if p.current.kind = kind then [] else p.note (.unexpectedToken p.current.kind kind)) := by
  unfold Parser.expect
  split
  · exact advance p
  · exact report _ p

theorem abandon (n : Nat) (p : Parser) :
    p.LeadsTo (p.abandon n) (p.note (.nestedTooDeep n)) where
  diagnostics := (report (.nestedTooDeep n) p).diagnostics
  rest := List.nil_suffix
  stop := (report (.nestedTooDeep n) p).stop
  abandoned h := ⟨rfl, ((report (.nestedTooDeep n) p).abandoned h).2⟩
  nestedTooDeep _ := by
    by_cases h : p.abandoned = true
    · exact .inl h
    · exact .inr ⟨⟨p.current.span, .nestedTooDeep n⟩, by simp [note, h], n, rfl⟩

end LeadsTo

end Parser

theorem Reads.leadsTo (hr : Reads limit t p e h p') : ∃ more, p.LeadsTo p' more := by
  induction hr with
  | shut hn => exact ⟨_, .abandon _ _⟩
  | opened hn _ _ ihfirst ihchain =>
    obtain ⟨m₁, h₁⟩ := ihfirst
    obtain ⟨m₂, h₂⟩ := ihchain
    exact ⟨_, (LeadsTo.enter _).trans (h₁.trans (h₂.trans (.leave _)))⟩
  | unary hq _ ih =>
    obtain ⟨m₁, h₁⟩ := ih
    exact ⟨_, (LeadsTo.advance _).trans h₁⟩
  | parenthesized hq hk _ ih =>
    obtain ⟨m₁, h₁⟩ := ih
    exact ⟨_, (LeadsTo.advance _).trans (h₁.trans (.expect _ _))⟩
  | truth hq hk => exact ⟨_, .advance _⟩
  | number hq ho ht hf => exact ⟨_, .expect _ _⟩
  | done hq => exact ⟨_, .of_eq rfl (List.suffix_refl _) rfl rfl⟩
  | cut hq hn => exact ⟨_, .abandon _ _⟩
  | link hq hn _ _ ihright ihchain =>
    obtain ⟨m₁, h₁⟩ := ihright
    obtain ⟨m₂, h₂⟩ := ihchain
    exact ⟨_, (LeadsTo.advance _).trans (h₁.trans h₂)⟩

end Reckoner
