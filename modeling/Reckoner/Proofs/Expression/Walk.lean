import Mathlib.Data.List.Forall2
import Reckoner.Proofs.Expression.Levels

/-!
# Walks

Whatever is read, the reading does one of five things at a time, and each of them lays down at most
one token as a leaf. So a reading is a walk along the line, and what holds of every walk needs no
induction over expressions.

* `Parser.Step`, `Parser.Walk`: one such thing, and any number of them.
* `Parser.Walk.mem`: what is laid down is a token of the line or takes the place of one.
* `Reads.exists_walk`, `Parser.walk_series`: readings are walks, which lay down their leaves.
* `Parser.GoesOn`, `Parser.GivenUpAt`: what is known while the line is read on, and behind the place
  where it was given up; `GoesOn.step`, `GivenUpAt.step`: a step keeps it.
* **`Parser.Walk.account`**: hence this is known of every walk.
-/

namespace Reckoner

open Reckoner.Parser

/-- A token that takes the place of one that is missing. -/
def Token.IsPlaceholder (t : Token) : Prop :=
  t = .missing t.kind t.position

/-- The placeholder `t` is noted by `d`: at its place a token of another kind is found. -/
def Token.NotedBy (t : Token) (d : Diagnostic) : Prop :=
  t.IsPlaceholder ∧ d.span.start = t.position ∧
    ∃ actual, actual ≠ t.kind ∧ d.complaint = .unexpectedToken actual t.kind

/-- The token does not stand on the line. -/
def Token.isEmpty (t : Token) : Bool :=
  !t.isWritten

namespace Parser

/-! ## Steps and walks -/

/-- What is done at a place, the tokens that it lays down, and the place to which it leads. -/
inductive Step (limit : Option Nat) : Parser → List Token → Parser → Prop
  /-- An expression is opened or closed. -/
  | level (p : Parser) (depth : Nat) : Step limit p [] { p with depth }
  /-- A token is taken. -/
  | take {p : Parser} (hk : p.current.kind ≠ .ending) : Step limit p [p.current] p.advance
  /-- A token is missing. -/
  | miss {p : Parser} {kind : TokenKind} (hk : p.current.kind ≠ kind) :
      Step limit p [.missing kind p.current.position]
        (p.report (.unexpectedToken p.current.kind kind))
  /-- The line is given up in front of an operand. -/
  | shut {p : Parser} {n : Nat} (hn : n ∈ limit) :
      Step limit p [.missing .number p.current.position] (p.abandon n)
  /-- The line is given up in front of an operator. -/
  | cut {p : Parser} {n : Nat} (hn : n ∈ limit) : Step limit p [] (p.abandon n)

/-- `Walk limit p ts p'`: steps lead from `p` to `p'` and lay down the tokens `ts`. -/
inductive Walk (limit : Option Nat) (p : Parser) : List Token → Parser → Prop
  | refl : Walk limit p [] p
  | step {ts us : List Token} {q r : Parser} (h : Walk limit p ts q) (hs : Step limit q us r) :
      Walk limit p (ts ++ us) r

variable {limit : Option Nat} {p q r : Parser} {ts us : List Token}

theorem Walk.single (h : Step limit p ts q) : Walk limit p ts q := by
  simpa using Walk.refl.step h

theorem Walk.trans (h : Walk limit p ts q) (h' : Walk limit q us r) :
    Walk limit p (ts ++ us) r := by
  induction h' with
  | refl => simpa using h
  | step _ hs ih => simpa using ih.step hs

theorem Walk.enter (p : Parser) : Walk limit p [] p.enter :=
  .single (.level p _)

theorem Walk.leave (p : Parser) : Walk limit p [] p.leave :=
  .single (.level p _)

theorem Walk.expect (kind : TokenKind) (hkind : kind ≠ .ending) (p : Parser) :
    Walk limit p [(p.expect kind).1] (p.expect kind).2 := by
  unfold Parser.expect
  split
  · next hk => exact .single (.take (hk ▸ hkind))
  · next hk => exact .single (.miss hk)

theorem Step.exists_leadsTo (h : Step limit p ts q) :
    ∃ more, p.LeadsTo q more ∧ ∀ d ∈ more, d.span = p.current.span := by
  have hquiet : ∀ d ∈ ([] : List Diagnostic), d.span = p.current.span := nofun
  cases h with
  | level depth => exact ⟨[], .of_eq rfl (List.suffix_refl _) rfl rfl, hquiet⟩
  | take hk => exact ⟨[], .advance p, hquiet⟩
  | miss hk => exact ⟨_, .report _ p, fun d hd => congrArg Diagnostic.span (eq_of_mem_note hd)⟩
  | shut hn => exact ⟨_, .abandon _ p, fun d hd => congrArg Diagnostic.span (eq_of_mem_note hd)⟩
  | cut hn => exact ⟨_, .abandon _ p, fun d hd => congrArg Diagnostic.span (eq_of_mem_note hd)⟩

theorem Walk.exists_leadsTo (h : Walk limit p ts q) : ∃ more, p.LeadsTo q more := by
  induction h with
  | refl => exact ⟨[], .of_eq rfl (List.suffix_refl _) rfl rfl⟩
  | step _ hs ih =>
    obtain ⟨more, hmore⟩ := ih
    obtain ⟨later, hlater, -⟩ := hs.exists_leadsTo
    exact ⟨more ++ later, hmore.trans hlater⟩

theorem Step.mem (hs : Step limit p us q) {t : Token} (ht : t ∈ us) :
    t ∈ p.rest ∨ t.IsPlaceholder := by
  cases hs with
  | level depth => exact absurd ht List.not_mem_nil
  | take hk =>
    rw [List.mem_singleton.mp ht, rest_eq_current_cons hk]
    exact .inl List.mem_cons_self
  | miss hk =>
    rw [List.mem_singleton.mp ht]
    exact .inr rfl
  | shut hn =>
    rw [List.mem_singleton.mp ht]
    exact .inr rfl
  | cut hn => exact absurd ht List.not_mem_nil

theorem Walk.mem (h : Walk limit p ts q) {t : Token} (ht : t ∈ ts) :
    t ∈ p.rest ∨ t.IsPlaceholder := by
  induction h with
  | refl => exact absurd ht List.not_mem_nil
  | step hwalk hs ih =>
    rcases List.mem_append.mp ht with ht | ht
    · exact ih ht
    · obtain ⟨_, hlead⟩ := hwalk.exists_leadsTo
      exact (hs.mem ht).imp_left fun hmem => hlead.rest.subset hmem

theorem mem_of_reached? {n count : Nat} (h : reached? limit count = some n) : n ∈ limit :=
  (Option.filter_eq_some_iff.mp h).1

end Parser

variable {limit : Option Nat} {t : Task} {p p' : Parser} {e : Expression} {h : Nat}

/-- **Every reading is a walk**: behind what is read already, the leaves are what it lays down. -/
theorem Reads.exists_walk (hr : Reads limit t p e h p') :
    ∃ ts, e.leaves = t.read ++ ts ∧ p.Walk limit ts p' := by
  induction hr with
  | shut hn => exact ⟨_, rfl, .single (.shut (mem_of_reached? hn))⟩
  | @opened _ _ _ p p₁ p₂ _ _ hn _ _ ihfirst ihchain =>
    obtain ⟨ts, hts, hfirst⟩ := ihfirst
    obtain ⟨us, hus, hchain⟩ := ihchain
    refine ⟨ts ++ us, ?_, ?_⟩
    · rw [hus, Task.read, hts]
      rfl
    · simpa using (Walk.enter p).trans ((hfirst.trans hchain).trans (.leave p₂))
  | @unary _ _ _ p _ _ hq _ ih =>
    obtain ⟨ts, hts, hinner⟩ := ih
    have hk : p.current.kind ≠ .ending := fun hk => by
      simp [unaryAt?, hk, TokenKind.unaryPrecedence?] at hq
    exact ⟨p.current :: ts, congrArg (p.current :: ·) hts, (Walk.single (.take hk)).trans hinner⟩
  | @parenthesized _ _ p p' _ hq hk _ ih =>
    obtain ⟨ts, hts, hinner⟩ := ih
    have hopen : p.current.kind ≠ .ending := fun hend => by simp [hk] at hend
    refine ⟨p.current :: (ts ++ [(p'.expect .closeParen).1]), ?_, ?_⟩
    · rw [Expression.leaves, hts]
      rfl
    · exact (Walk.single (.take hopen)).trans (hinner.trans (.expect .closeParen (by decide) p'))
  | @truth _ p _ hk =>
    have hk : p.current.kind ≠ .ending := fun hend => by simp [hend] at hk
    exact ⟨[p.current], rfl, .single (.take hk)⟩
  | number => exact ⟨_, rfl, .expect .number (by decide) _⟩
  | done hq => exact ⟨[], (List.append_nil _).symm, .refl⟩
  | cut hq hn => exact ⟨[], (List.append_nil _).symm, .single (.cut (mem_of_reached? hn))⟩
  | @link _ _ _ _ _ p p₁ p' left right e hq _ _ _ ihright ihchain =>
    obtain ⟨ts, hts, hright⟩ := ihright
    obtain ⟨us, hus, hchain⟩ := ihchain
    have hk : p.current.kind ≠ .ending := fun hk => by
      simp [binaryAt?, hk, TokenKind.binaryPrecedence?] at hq
    refine ⟨p.current :: (ts ++ us), ?_, (Walk.single (.take hk)).trans (hright.trans hchain)⟩
    rw [hus, Task.read, Expression.leaves, hts]
    simp [Task.read]

namespace Parser

/-! ## Several expressions -/

theorem series_append (limit : Option Nat) (ms ns : List Nat) (p : Parser) :
    p.series limit (ms ++ ns) = ((p.series limit ms).1 ++ ((p.series limit ms).2.series limit ns).1,
      ((p.series limit ms).2.series limit ns).2) := by
  induction ms generalizing p with
  | nil => rfl
  | cons m ms ih => simp only [List.cons_append, series, ih]

theorem length_series (limit : Option Nat) (ms : List Nat) (p : Parser) :
    (p.series limit ms).1.length = ms.length := by
  induction ms generalizing p with
  | nil => rfl
  | cons m ms ih => simp [series, ih]

theorem walk_series (limit : Option Nat) (ms : List Nat) (p : Parser) :
    p.Walk limit ((p.series limit ms).1.flatMap Expression.leaves) (p.series limit ms).2 := by
  induction ms generalizing p with
  | nil => exact .refl
  | cons m ms ih =>
    obtain ⟨ts, hts, hfirst⟩ := ((Task.nested m).isRead limit p).exists_walk
    rw [series, List.flatMap_cons, show (nested limit m p).expression.leaves = ts from hts]
    exact hfirst.trans (ih _)

/-! ## What is known on the way -/

/-- From `start` the line is read on up to `p`: what was laid down are the tokens in between and
empty ones, and each empty one was noted. -/
structure GoesOn (start : Parser) (laid : List Token) (p : Parser) : Prop where
  abandoned : p.abandoned = false
  stop : p.stop = start.stop
  rest : start.rest = laid.filter Token.isWritten ++ p.rest
  notes : ∃ more, p.diagnostics.toList = start.diagnostics.toList ++ more ∧
    List.Forall₂ Token.NotedBy (laid.filter Token.isEmpty) more

/-- The line was given up at `q`, which was the last thing to be noted before `p`. -/
structure GivenUpAt (n : Nat) (q p : Parser) : Prop where
  abandoned : p.abandoned = true
  stop : p.stop = q.stop
  rest : p.rest = []
  diagnostics : p.diagnostics = q.diagnostics.push ⟨q.current.span, .nestedTooDeep n⟩

/-- What is known of a walk: the line is read on, or it was given up somewhere, and behind that place
nothing but placeholders is laid down. -/
def Accounted (limit : Option Nat) (start : Parser) (laid : List Token) (p : Parser) : Prop :=
  GoesOn start laid p ∨ ∃ n ∈ limit, ∃ q before after, laid = before ++ after ∧
    GoesOn start before q ∧ GivenUpAt n q p ∧ ∀ t ∈ after, t.IsPlaceholder

section Steps

variable {start : Parser} {laid : List Token} {n : Nat}

theorem GoesOn.refl (h : p.abandoned = false) : GoesOn p [] p :=
  ⟨h, rfl, rfl, [], by simp, .nil⟩

theorem complaint_of_notedBy {ts : List Token} {ds : List Diagnostic} {d : Diagnostic}
    (h : List.Forall₂ Token.NotedBy ts ds) (hd : d ∈ ds) :
    ∃ actual expected, d.complaint = .unexpectedToken actual expected := by
  induction h with
  | nil => exact absurd hd List.not_mem_nil
  | cons hnoted _ ih =>
    rcases List.mem_cons.mp hd with rfl | hd
    · obtain ⟨-, -, actual, -, hc⟩ := hnoted
      exact ⟨actual, _, hc⟩
    · exact ih hd

theorem GivenUpAt.abandon (h : p.abandoned = false) (n : Nat) : GivenUpAt n p (p.abandon n) where
  abandoned := rfl
  stop := (LeadsTo.abandon n p).stop
  rest := rfl
  diagnostics := by simp [Parser.abandon, report, h]

/-- **A line that is read on is read on or given up.** -/
theorem GoesOn.step (h : GoesOn start laid p) (hw : ∀ t ∈ start.rest, t.isWritten = true)
    (hs : Step limit p us q) :
    GoesOn start (laid ++ us) q ∨
      ∃ n ∈ limit, GivenUpAt n p q ∧ ∀ t ∈ us, t.IsPlaceholder := by
  obtain ⟨habandoned, hstop, hrest, more, hmore, hnoted⟩ := h
  cases hs with
  | level depth =>
    refine .inl ⟨habandoned, hstop, ?_, more, hmore, ?_⟩
    · simpa using hrest
    · simpa using hnoted
  | take hk =>
    have hcons := rest_eq_current_cons hk
    have hwritten : p.current.isWritten = true := by
      refine hw _ ?_
      rw [hrest, hcons]
      exact List.mem_append_right _ List.mem_cons_self
    refine .inl ⟨habandoned, hstop, ?_, more, hmore, ?_⟩
    · rw [hrest, hcons]
      simp [hwritten]
    · simpa [Token.isEmpty, hwritten] using hnoted
  | @miss kind hk =>
    let d : Diagnostic := ⟨p.current.span, .unexpectedToken p.current.kind kind⟩
    have hempty : (Token.missing kind p.current.position).isWritten = false := rfl
    have hnote : (Token.missing kind p.current.position).NotedBy d :=
      ⟨rfl, rfl, p.current.kind, hk, rfl⟩
    have hlead := LeadsTo.report (.unexpectedToken p.current.kind kind) p
    refine .inl ⟨?_, hlead.stop.trans hstop, ?_, more ++ [d], ?_, ?_⟩
    · simp [report, habandoned]
    · simpa [hempty] using hrest
    · rw [hlead.diagnostics, hmore, note, habandoned, List.append_assoc]
      rfl
    · rw [List.filter_append]
      exact List.rel_append hnoted (.cons hnote .nil)
  | @shut n hn =>
    refine .inr ⟨n, hn, .abandon habandoned n, fun t ht => ?_⟩
    rw [List.mem_singleton.mp ht]
    rfl
  | @cut n hn => exact .inr ⟨n, hn, .abandon habandoned n, fun t ht => absurd ht List.not_mem_nil⟩

theorem GivenUpAt.step (h : GivenUpAt n q p) (hs : Step limit p us r) :
    GivenUpAt n q r ∧ ∀ t ∈ us, t.IsPlaceholder := by
  obtain ⟨habandoned, hstop, hrest, hdiagnostics⟩ := h
  have hsilent (c : Complaint) : p.report c = p := by simp [report, habandoned]
  have hplaceholder (kind : TokenKind) (position : Nat) :
      ∀ t ∈ [Token.missing kind position], t.IsPlaceholder := by
    intro t ht
    rw [List.mem_singleton.mp ht]
    rfl
  cases hs with
  | level depth =>
    exact ⟨⟨habandoned, hstop, hrest, hdiagnostics⟩, fun t ht => absurd ht List.not_mem_nil⟩
  | take hk =>
    -- nothing is left that could be taken
    simp [current, hrest, Token.ending, Token.missing] at hk
  | miss hk =>
    rw [hsilent]
    exact ⟨⟨habandoned, hstop, hrest, hdiagnostics⟩, hplaceholder _ _⟩
  | shut hn =>
    rw [Parser.abandon, hsilent]
    exact ⟨⟨rfl, hstop, rfl, hdiagnostics⟩, hplaceholder _ _⟩
  | cut hn =>
    rw [Parser.abandon, hsilent]
    exact ⟨⟨rfl, hstop, rfl, hdiagnostics⟩, fun t ht => absurd ht List.not_mem_nil⟩

/-- **What is known of every walk** over tokens that stand on the line. -/
theorem Walk.account (h : Walk limit p ts q) (hp : p.abandoned = false)
    (hw : ∀ t ∈ p.rest, t.isWritten = true) : Accounted limit p ts q := by
  induction h with
  | refl => exact .inl (.refl hp)
  | @step ts us q r _ hs ih =>
    rcases ih with hon | ⟨n, hn, place, before, after, rfl, hon, hup, hafter⟩
    · rcases hon.step hw hs with hon | ⟨n, hn, hup, hus⟩
      · exact .inl hon
      · exact .inr ⟨n, hn, q, ts, us, rfl, hon, hup, hus⟩
    · obtain ⟨hup, hus⟩ := hup.step hs
      refine .inr ⟨n, hn, place, before, after ++ us, List.append_assoc _ _ _, hon, hup, ?_⟩
      exact fun t ht => (List.mem_append.mp ht).elim (hafter t) (hus t)

end Steps

end Parser

end Reckoner
