import Reckoner.Proofs.Expression.TooDeep
import Reckoner.Proofs.Expression.Walk
import Reckoner.Proofs.Token.Places

/-!
# Several expressions off one line

Expressions that are read one behind the other share what is left of the line, so a line that is
given up during one of them is given up for all that follow.

* `ParsedSeries.roots`, `ParsedSeries.leaves`: all expressions, and their leaves;
  `ParsedSeries.written`: those of them that stand on the line.
* `Ends`: the three ways in which the reading of a line ends; **`ParsedSeries.ends`**: there is no
  other.
* **`given_up_once`**: a line is given up once, and then nothing more is noted or read.
-/

namespace Reckoner

open Reckoner.Parser

/-- The diagnostic says that a line was given up. -/
def Diagnostic.isTooDeep (d : Diagnostic) : Bool :=
  d.complaint matches .nestedTooDeep _

/-- Whether the line was given up before this place. -/
def Parser.tooDeep (p : Parser) : Bool :=
  p.diagnostics.any Diagnostic.isTooDeep

namespace ParsedSeries

/-- All expressions that were read, with the one for what was left. -/
def roots (s : ParsedSeries) : List Expression :=
  s.expressions ++ [s.last.root]

/-- The leaves of all expressions from left to right. -/
def leaves (s : ParsedSeries) : List Token :=
  s.roots.flatMap Expression.leaves

/-- The leaves that stand on the line. -/
def written (s : ParsedSeries) : List Token :=
  s.leaves.filter Token.isWritten

end ParsedSeries

variable {limit : Option Nat} {p q start place : Parser} {ts laid : List Token} {line : String}
  {n : Nat}

/-! ## Reading behind the end -/

theorem Parser.current_of_nil (hp : p.rest = []) : p.current = .ending p.stop := by
  rw [current, hp]
  rfl

theorem Reads.eq_of_rest_nil {m h : Nat} {e : Expression} (hr : Reads limit (.nested m) p e h q)
    (hp : p.rest = []) : e = .literal (.missing .number p.stop) := by
  cases hr with
  | shut hn =>
    rw [current_of_nil hp]
    rfl
  | opened hn hfirst hchain =>
    have henter : p.enter.rest = [] := hp
    have hkind : p.enter.current.kind = .ending := by
      rw [current_of_nil henter]
      rfl
    cases hfirst with
    | unary hq _ => simp [unaryAt?, hkind, TokenKind.unaryPrecedence?] at hq
    | parenthesized _ hk _ => simp [hkind] at hk
    | truth _ hk => simp [hkind] at hk
    | number =>
      have hnone : (p.enter.expect .number).2.binaryAt? m = none := by
        rw [binaryAt?, current_of_nil]
        · rfl
        · simp [expect, hkind, henter]
      cases hchain with
      | done _ =>
        rw [expect, hkind, if_neg (by decide), current_of_nil henter]
        rfl
      | cut hq _ => exact absurd (hq.symm.trans hnone) (Option.some_ne_none _)
      | link hq _ _ _ => exact absurd (hq.symm.trans hnone) (Option.some_ne_none _)

theorem Parser.expect_ending_of_nil (hp : p.rest = []) :
    (p.expect .ending).1 = .ending p.stop ∧ (p.expect .ending).2.diagnostics = p.diagnostics := by
  have hcurrent := current_of_nil hp
  have hkind : p.current.kind = .ending := by
    rw [hcurrent]
    rfl
  rw [expect, if_pos hkind]
  exact ⟨hcurrent, rfl⟩

/-! ## What was noted -/

theorem Diagnostic.isTooDeep_eq_false {d : Diagnostic} (h : ∀ n, d.complaint ≠ .nestedTooDeep n) :
    d.isTooDeep = false := by
  unfold isTooDeep
  split
  · next n hn => exact absurd hn (h n)
  · rfl

theorem Parser.isTooDeep_ofString {d : Diagnostic} (hd : d ∈ (ofString line).diagnostics.toList) :
    d.isTooDeep = false := by
  refine Diagnostic.isTooDeep_eq_false fun n => ?_
  rw [ofString_eq] at hd
  exact Lexeme.complaint_ne_of_mem_notes hd n

theorem Parser.GoesOn.isTooDeep (h : GoesOn (ofString line) laid p) {d : Diagnostic}
    (hd : d ∈ p.diagnostics.toList) : d.isTooDeep = false := by
  obtain ⟨more, hmore, hnoted⟩ := h.notes
  rw [hmore] at hd
  rcases List.mem_append.mp hd with hd | hd
  · exact isTooDeep_ofString hd
  · obtain ⟨actual, expected, hc⟩ := complaint_of_notedBy hnoted hd
    exact Diagnostic.isTooDeep_eq_false fun n hn => absurd (hc.symm.trans hn) nofun

theorem Parser.account_series (limit : Option Nat) (minimums : List Nat) (line : String) :
    Accounted limit (ofString line)
      (((ofString line).series limit minimums).1.flatMap Expression.leaves)
      ((ofString line).series limit minimums).2 :=
  (walk_series limit minimums _).account rfl fun _ ht => bne_iff_ne.mpr (literal_ne_of_mem ht)

/-! ## The ways in which the reading of a line ends -/

/-- How the reading of a line ends at `place`, where the end of the line is expected: everything was
read; or something is left in front of the end, which is noted; or the line was given up before. -/
inductive Ends (limit : Option Nat) (start : Parser) : List Token → Parser → ParsedLine → Prop
  | whole {laid : List Token} {place : Parser} {l : ParsedLine} (h : GoesOn start laid place)
      (hrest : place.rest = []) (hending : l.ending = .ending start.stop)
      (hd : l.diagnostics = place.diagnostics) : Ends limit start laid place l
  | early {laid : List Token} {place : Parser} {l : ParsedLine} (h : GoesOn start laid place)
      (hk : place.current.kind ≠ .ending)
      (hending : l.ending = .missing .ending place.current.position)
      (hd : l.diagnostics =
        place.diagnostics.push ⟨place.current.span, .unexpectedToken place.current.kind .ending⟩) :
      Ends limit start laid place l
  | givenUp {n : Nat} {q : Parser} {before after : List Token} {place : Parser} {l : ParsedLine}
      (hn : n ∈ limit) (h : GoesOn start before q) (hup : GivenUpAt n q place)
      (hafter : ∀ t ∈ after, t.IsPlaceholder) (hending : l.ending = .ending start.stop)
      (hd : l.diagnostics = place.diagnostics) : Ends limit start (before ++ after) place l

theorem Ends.ending_eq {l : ParsedLine} (h : Ends limit start laid place l) :
    l.ending = .ending l.ending.position := by
  cases h with
  | whole _ _ hending _ =>
    rw [hending]
    rfl
  | early _ _ hending _ =>
    rw [hending]
    rfl
  | givenUp _ _ _ _ hending _ =>
    rw [hending]
    rfl

namespace ParsedSeries

variable (line : String) (minimums : List Nat) (limit : Option Nat)

/-- Where the end of the line is expected behind all expressions. -/
def endPlace : Parser :=
  ((Parser.ofString line).series limit (minimums ++ [0])).2

theorem roots_eq : (ofString line minimums limit).roots =
    ((Parser.ofString line).series limit (minimums ++ [0])).1 := by
  rw [series_append]
  rfl

theorem last_eq : (ofString line minimums limit).last.ending =
      ((endPlace line minimums limit).expect .ending).1 ∧
    (ofString line minimums limit).last.diagnostics =
      ((endPlace line minimums limit).expect .ending).2.diagnostics := by
  rw [endPlace, series_append]
  exact ⟨rfl, rfl⟩

/-- **The reading of a line ends in one of these ways.** -/
theorem ends : Ends limit (Parser.ofString line) (ofString line minimums limit).leaves
    (endPlace line minimums limit) (ofString line minimums limit).last := by
  obtain ⟨hending, hd⟩ := last_eq line minimums limit
  have haccount := account_series limit (minimums ++ [0]) line
  rw [← roots_eq] at haccount
  rcases haccount with hon | ⟨n, hn, q, before, after, hlaid, hon, hup, hafter⟩
  · by_cases hrest : (endPlace line minimums limit).rest = []
    · obtain ⟨hfound, hquiet⟩ := expect_ending_of_nil hrest
      exact .whole hon hrest (by rw [hending, hfound, endPlace, hon.stop]) (hd.trans hquiet)
    · -- the next token is one of the line and so not its end
      have hkind : (endPlace line minimums limit).current.kind ≠ .ending := by
        obtain ⟨t, ts, hcons⟩ := List.exists_cons_of_ne_nil hrest
        have hmem : t ∈ (Parser.ofString line).rest := by
          rw [hon.rest]
          exact List.mem_append_right _ (hcons ▸ List.mem_cons_self)
        rw [(current_of_cons hcons).1]
        exact kind_ofString_ne_ending hmem
      rw [expect, if_neg hkind] at hending hd
      refine .early hon hkind hending (hd.trans ?_)
      simp [report, show (endPlace line minimums limit).abandoned = false from hon.abandoned]
  · obtain ⟨hfound, hquiet⟩ := expect_ending_of_nil (p := endPlace line minimums limit) hup.rest
    rw [show (ofString line minimums limit).leaves = before ++ after from hlaid]
    refine .givenUp hn hon hup hafter ?_ (hd.trans hquiet)
    rw [hending, hfound, endPlace, hup.stop, hon.stop]

end ParsedSeries

theorem ParsedLine.root_mem_roots (line : String) :
    (ofString line).root ∈ (ParsedSeries.ofString line []).roots :=
  List.mem_cons_self

/-! ## Lines that are given up -/

variable {l : ParsedLine}

theorem ParsedLine.tooDeep_eq_true : l.tooDeep = true ↔
    ∃ d ∈ l.diagnostics.toList, d.isTooDeep = true := by
  rw [show l.tooDeep = l.diagnostics.any Diagnostic.isTooDeep from rfl, ← Array.any_toList,
    List.any_eq_true]

theorem Parser.tooDeep_eq_true : p.tooDeep = true ↔
    ∃ d ∈ p.diagnostics.toList, d.isTooDeep = true := by
  rw [tooDeep, ← Array.any_toList, List.any_eq_true]

theorem Parser.GivenUpAt.exists_notes (hon : GoesOn (ofString line) laid q)
    (hup : GivenUpAt n q p) : ∃ before,
      p.diagnostics.toList = before ++ [⟨q.current.span, .nestedTooDeep n⟩] ∧
      ∀ d ∈ before, d.isTooDeep = false := by
  refine ⟨q.diagnostics.toList, ?_, fun d hd => hon.isTooDeep hd⟩
  rw [hup.diagnostics, Array.toList_push]

theorem Parser.GoesOn.tooDeep (h : GoesOn (ofString line) laid p) : p.tooDeep = false := by
  rw [Bool.eq_false_iff]
  intro hdeep
  obtain ⟨d, hd, hdeep⟩ := tooDeep_eq_true.mp hdeep
  rw [h.isTooDeep hd] at hdeep
  exact Bool.false_ne_true hdeep

theorem Parser.GivenUpAt.tooDeep (h : GivenUpAt n q p) : p.tooDeep = true := by
  rw [tooDeep_eq_true, h.diagnostics, Array.toList_push]
  exact ⟨_, List.mem_append_right _ (List.mem_singleton.mpr rfl), rfl⟩

/-- **Either nothing says that the line was given up, or the last note does** and no other one. -/
theorem Ends.notes (h : Ends limit (ofString line) laid place l) :
    (∀ d ∈ l.diagnostics.toList, d.isTooDeep = false) ∨
    l.ending = .ending line.utf8ByteSize ∧ ∃ before d, l.diagnostics.toList = before ++ [d] ∧
      ∀ x ∈ before, x.isTooDeep = false := by
  cases h with
  | whole hon _ _ hd =>
    rw [hd]
    exact .inl fun d hd => hon.isTooDeep hd
  | early hon _ _ hd =>
    rw [hd, Array.toList_push]
    refine .inl fun d hd => ?_
    rcases List.mem_append.mp hd with hd | hd
    · exact hon.isTooDeep hd
    · rw [List.mem_singleton.mp hd]
      rfl
  | givenUp _ hon hup _ hending hd =>
    obtain ⟨before, hlast, hbefore⟩ := hup.exists_notes hon
    rw [hd, hending, stop_ofString]
    exact .inr ⟨rfl, before, _, hlast, hbefore⟩

theorem Ends.countP_isTooDeep_le (h : Ends limit (ofString line) laid place l) :
    l.diagnostics.toList.countP Diagnostic.isTooDeep ≤ 1 := by
  rcases h.notes with hnone | ⟨-, before, d, hnotes, hbefore⟩
  · rw [List.countP_eq_zero.mpr fun d hd => Bool.eq_false_iff.mp (hnone d hd)]
    exact Nat.zero_le 1
  · rw [hnotes, List.countP_append,
      List.countP_eq_zero.mpr fun x hx => Bool.eq_false_iff.mp (hbefore x hx), Nat.zero_add]
    exact List.countP_le_length

theorem Ends.eq_nil_of_isTooDeep (h : Ends limit (ofString line) laid place l)
    {before after : List Diagnostic} {d : Diagnostic}
    (hsplit : l.diagnostics.toList = before ++ d :: after) (hd : d.isTooDeep = true) :
    after = [] := by
  rcases h.notes with hnone | ⟨-, front, x, hnotes, hfront⟩
  · rw [hnone d (hsplit ▸ List.mem_append_right _ List.mem_cons_self)] at hd
    exact absurd hd Bool.false_ne_true
  · rcases List.eq_nil_or_concat after with rfl | ⟨init, y, rfl⟩
    · rfl
    · -- the note would stand in front of the last one
      have hmem : d ∈ front := by
        rw [hnotes, List.concat_eq_append, ← List.cons_append, ← List.append_assoc] at hsplit
        rw [(List.append_inj' hsplit rfl).1]
        exact List.mem_append_right _ List.mem_cons_self
      rw [hfront d hmem] at hd
      exact absurd hd Bool.false_ne_true

theorem Ends.ending_of_tooDeep (h : Ends limit (ofString line) laid place l)
    (hdeep : l.tooDeep = true) : l.ending = .ending line.utf8ByteSize := by
  obtain ⟨d, hd, hdeep⟩ := ParsedLine.tooDeep_eq_true.mp hdeep
  rcases h.notes with hnone | ⟨hending, -⟩
  · rw [hnone d hd] at hdeep
    exact absurd hdeep Bool.false_ne_true
  · exact hending

theorem Ends.tooDeep_iff (h : Ends limit (ofString line) laid place l) :
    l.tooDeep = true ↔ place.tooDeep = true := by
  rw [ParsedLine.tooDeep_eq_true, Parser.tooDeep_eq_true]
  cases h with
  | whole _ _ _ hd => rw [hd]
  | early _ _ _ hd =>
    rw [hd, Array.toList_push]
    simp [Diagnostic.isTooDeep]
  | givenUp _ _ _ _ _ hd => rw [hd]

theorem Parser.nested_of_tooDeep (minimums : List Nat)
    (hdeep : ((ofString line).series limit minimums).2.tooDeep = true) (m : Nat) :
    (nested limit m ((ofString line).series limit minimums).2).expression =
      .literal (.missing .number line.utf8ByteSize) := by
  rcases account_series limit minimums line with hon | ⟨n, -, q, before, after, -, hon, hup, -⟩
  · rw [hon.tooDeep] at hdeep
    exact absurd hdeep Bool.false_ne_true
  · have hread := ((Task.nested m).isRead limit _).eq_of_rest_nil hup.rest
    rwa [hup.stop, hon.stop, stop_ofString] at hread

theorem Parser.tooDeep_series_append (ms ns : List Nat) (h : (p.series limit ms).2.tooDeep = true) :
    (p.series limit (ms ++ ns)).2.tooDeep = true := by
  obtain ⟨more, hmore⟩ := (walk_series limit ns (p.series limit ms).2).exists_leadsTo
  obtain ⟨d, hd, hdeep⟩ := tooDeep_eq_true.mp h
  rw [series_append, tooDeep_eq_true, hmore.diagnostics]
  exact ⟨d, List.mem_append_left _ hd, hdeep⟩

theorem ParsedSeries.tooDeep_of_parsedLine (h : (ParsedLine.ofString line).tooDeep = true) :
    ((Parser.ofString line).series (some nestingLimit) [0]).2.tooDeep = true ∧
      (ofString line [0]).last.tooDeep = true := by
  have hfirst := (ends line [] (some nestingLimit)).tooDeep_iff.mp h
  exact ⟨hfirst, (ends line [0] (some nestingLimit)).tooDeep_iff.mpr
    (Parser.tooDeep_series_append [0] [0] hfirst)⟩

/-- **A line is given up once.** Whatever expressions are read off a line, at most one note says that
it was given up; no other note stands behind that one; the end of the line is found all the same;
and every expression for which the reading starts later is a missing number at the end. -/
theorem given_up_once (line : String) (minimums : List Nat) :
    (ParsedSeries.ofString line minimums).last.diagnostics.toList.countP Diagnostic.isTooDeep ≤ 1 ∧
    (∀ before d after,
      (ParsedSeries.ofString line minimums).last.diagnostics.toList = before ++ d :: after →
        d.isTooDeep = true → after = []) ∧
    ((ParsedSeries.ofString line minimums).last.tooDeep = true →
      (ParsedSeries.ofString line minimums).last.ending = .ending line.utf8ByteSize) ∧
    ∀ earlier m later, minimums ++ [0] = earlier ++ m :: later →
      ((Parser.ofString line).series (some nestingLimit) earlier).2.tooDeep = true →
      (ParsedSeries.ofString line minimums).roots[earlier.length]? =
        some (.literal (.missing .number line.utf8ByteSize)) := by
  have hends := ParsedSeries.ends line minimums (some nestingLimit)
  refine ⟨hends.countP_isTooDeep_le, fun before d after => hends.eq_nil_of_isTooDeep,
    hends.ending_of_tooDeep, fun earlier m later hsplit hdeep => ?_⟩
  rw [ParsedSeries.roots_eq, hsplit, series_append, series,
    List.getElem?_append_right (Nat.le_of_eq (length_series _ _ _)), length_series,
    Nat.sub_self, List.getElem?_cons_zero, nested_of_tooDeep earlier hdeep m]

/-- One number in too many parentheses: the line is given up while the first expression is read, and
of a second one nothing is left. -/
theorem given_up_once_bracketedSum :
    (ParsedSeries.ofString (bracketedSum 256 0) [0]).last.ending =
        .ending (bracketedSum 256 0).utf8ByteSize ∧
      (ParsedSeries.ofString (bracketedSum 256 0) [0]).roots[1]? =
        some (.literal (.missing .number (bracketedSum 256 0).utf8ByteSize)) := by
  obtain ⟨hfirst, hlast⟩ :=
    ParsedSeries.tooDeep_of_parsedLine (tooDeep_bracketedSum (Nat.le_refl 256) 0)
  obtain ⟨-, -, hending, hsilent⟩ := given_up_once (bracketedSum 256 0) [0]
  exact ⟨hending hlast, hsilent [0] 0 [] rfl hfirst⟩

end Reckoner
