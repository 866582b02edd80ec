import Reckoner.Proofs.Expression.Series

/-!
# Leaves and tokens

The leaves of what is read are the tokens of the line, in their order, with placeholders between them.
They stop in front of the token at which the reading ended: where the end of the line was expected, or
where the line was given up.

* `Parser.Passed`, `Parser.Walk.places`: what is laid down later stands further on.
* `Ends.exists_next`: the leaves that stand on the line, and the token at which the reading ended.
* **`leaves_lossless`**: no token is lost, read twice or moved.
-/

namespace Reckoner

open Reckoner.Parser

variable {limit : Option Nat} {p q r start place : Parser} {ts us laid : List Token} {l : ParsedLine}
  {line : String} {more : List Diagnostic}

/-! ## Where leaves stand -/

theorem Parser.LeadsTo.tokens_suffix (h : p.LeadsTo q more) : q.tokens <:+ p.tokens := by
  obtain ⟨front, hfront⟩ := h.rest
  refine ⟨front, ?_⟩
  rw [tokens, tokens, h.stop, ← hfront, List.append_assoc]

theorem Parser.current_mem_tokens (p : Parser) : p.current ∈ p.tokens := by
  obtain ⟨later, h⟩ := p.exists_tokens_eq
  rw [h]
  exact List.mem_cons_self

theorem Parser.Ordered.of_leadsTo (hp : p.Ordered) (h : p.LeadsTo q more) :
    q.Ordered ∧ p.current.position ≤ q.current.position :=
  ⟨List.Pairwise.sublist h.tokens_suffix.sublist hp,
    hp.le_of_mem (h.tokens_suffix.subset q.current_mem_tokens)⟩

/-- The places `ns` come in their order, and none of them lies behind the next token. -/
structure Parser.Passed (p : Parser) (ns : List Nat) : Prop where
  ordered : ns.Pairwise (· ≤ ·)
  bound : ∀ n ∈ ns, n ≤ p.current.position

theorem Parser.Passed.nil (p : Parser) : p.Passed [] :=
  ⟨.nil, fun _ hn => absurd hn List.not_mem_nil⟩

theorem Parser.Passed.next {ns ms : List Nat} (h : p.Passed ns) (hp : p.Ordered)
    (hlead : p.LeadsTo q more) (hms : ∀ n ∈ ms, n = p.current.position) : q.Passed (ns ++ ms) := by
  have hle := (hp.of_leadsTo hlead).2
  refine ⟨List.pairwise_append.mpr ⟨h.ordered, ?_, fun n hn m hm => ?_⟩, fun n hn => ?_⟩
  · refine List.pairwise_of_forall_mem_list fun n hn m hm => ?_
    rw [hms n hn, hms m hm]
  · rw [hms m hm]
    exact h.bound n hn
  · rcases List.mem_append.mp hn with hn | hn
    · exact (h.bound n hn).trans hle
    · rw [hms n hn]
      exact hle

theorem Parser.Step.position_eq (hs : Step limit p us q) :
    ∀ n ∈ us.map Token.position, n = p.current.position := by
  cases hs with
  | level depth => exact fun _ hn => absurd hn List.not_mem_nil
  | take hk => exact fun _ hn => List.mem_singleton.mp hn
  | miss hk => exact fun _ hn => List.mem_singleton.mp hn
  | shut hn => exact fun _ hn => List.mem_singleton.mp hn
  | cut hn => exact fun _ hn => absurd hn List.not_mem_nil

/-- **What a walk lays down later stands further on**, and nothing stands behind the place to which
it leads. -/
theorem Parser.Walk.places (h : Walk limit p ts q) (hp : p.Ordered) :
    q.Passed (ts.map Token.position) := by
  induction h with
  | refl => exact .nil p
  | step hwalk hs ih =>
    obtain ⟨_, hlead⟩ := hwalk.exists_leadsTo
    obtain ⟨_, hnext, -⟩ := hs.exists_leadsTo
    rw [List.map_append]
    exact ih.next (hp.of_leadsTo hlead).1 hnext hs.position_eq

theorem Parser.position_expect (kind : TokenKind) (p : Parser) :
    (p.expect kind).1.position = p.current.position := by
  unfold expect
  split <;> rfl

theorem ParsedSeries.places (line : String) (minimums : List Nat) (limit : Option Nat) :
    ((ofString line minimums limit).leaves ++ [(ofString line minimums limit).last.ending]).Pairwise
      fun s t => s.position ≤ t.position := by
  have hwalk := walk_series limit (minimums ++ [0]) (Parser.ofString line)
  rw [← roots_eq] at hwalk
  have hpassed := hwalk.places (ordered_ofString line)
  refine List.pairwise_append.mpr ⟨List.pairwise_map.mp hpassed.ordered, List.pairwise_singleton _ _,
    fun s hs t ht => ?_⟩
  rw [List.mem_singleton.mp ht, (last_eq line minimums limit).1, position_expect]
  exact hpassed.bound _ (List.mem_map_of_mem hs)

/-! ## What was read of a line -/

theorem Parser.GoesOn.tokens_eq (h : GoesOn start laid p) :
    start.tokens = laid.filter Token.isWritten ++ p.tokens := by
  rw [tokens, tokens, h.rest, h.stop, List.append_assoc]

theorem Token.IsPlaceholder.not_isWritten {t : Token} (h : t.IsPlaceholder) :
    t.isWritten = false := by
  rw [h]
  rfl

theorem Token.filter_isWritten_eq_nil {after : List Token} (h : ∀ t ∈ after, t.IsPlaceholder) :
    after.filter isWritten = [] :=
  List.filter_eq_nil_iff.mpr fun t ht => Bool.eq_false_iff.mp (h t ht).not_isWritten

/-- **What is laid down and stands on the line are its first tokens**, in their order. -/
theorem Parser.Accounted.exists_rest_eq (h : Accounted limit start laid p) :
    ∃ later, start.rest = laid.filter Token.isWritten ++ later := by
  rcases h with hon | ⟨n, -, q, before, after, rfl, hon, -, hafter⟩
  · exact ⟨p.rest, hon.rest⟩
  · rw [List.filter_append, Token.filter_isWritten_eq_nil hafter, List.append_nil]
    exact ⟨q.rest, hon.rest⟩

theorem Parser.GoesOn.filter_eq_self (h : GoesOn start laid p)
    (hd : p.diagnostics = start.diagnostics) : laid.filter Token.isWritten = laid := by
  obtain ⟨more, hmore, hnoted⟩ := h.notes
  rw [hd, List.self_eq_append_right] at hmore
  rw [hmore, List.forall₂_nil_right_iff, List.filter_eq_nil_iff] at hnoted
  exact List.filter_eq_self.mpr fun t ht => by simpa [Token.isEmpty] using hnoted t ht

theorem Parser.tokens_of_nil (hp : p.rest = []) : p.tokens = [.ending p.stop] := by
  rw [tokens, hp, List.nil_append]

/-- **The leaves that stand on the line are its tokens up to the one at which the reading ended**:
the one that was found where the end of the line was expected, or the one at which the line was given
up. -/
theorem Ends.exists_next (h : Ends limit (ofString line) laid place l) : ∃ next later,
    tokensOf line = laid.filter Token.isWritten ++ next :: later ∧
    (l.tooDeep = false → next = place.current ∧
      (l.ending = next ∧ later = [] ∨
        next.kind ≠ .ending ∧ l.ending = .missing .ending next.position)) ∧
    (l.tooDeep = true → ∃ n ∈ limit,
      l.diagnostics.toList.getLast? = some ⟨next.span, .nestedTooDeep n⟩) := by
  have hdeep := h.tooDeep_iff
  rw [tokensOf_eq]
  cases h with
  | whole hon hrest hending hd =>
    have hcurrent := current_of_nil hrest
    refine ⟨place.current, [], ?_, fun _ => ⟨rfl, .inl ⟨?_, rfl⟩⟩, fun hl => ?_⟩
    · rw [hon.tokens_eq, tokens_of_nil hrest, hcurrent]
    · rw [hending, hcurrent, hon.stop]
    · exact absurd (hon.tooDeep.symm.trans (hdeep.mp hl)) Bool.false_ne_true
  | early hon hk hending hd =>
    obtain ⟨later, hlater⟩ := place.exists_tokens_eq
    refine ⟨place.current, later, ?_, fun _ => ⟨rfl, .inr ⟨hk, hending⟩⟩, fun hl => ?_⟩
    · rw [hon.tokens_eq, hlater]
    · exact absurd (hon.tooDeep.symm.trans (hdeep.mp hl)) Bool.false_ne_true
  | @givenUp n q before after _ _ hn hon hup hafter hending hd =>
    obtain ⟨later, hlater⟩ := q.exists_tokens_eq
    refine ⟨q.current, later, ?_, fun hl => ?_, fun _ => ⟨n, hn, ?_⟩⟩
    · rw [List.filter_append, Token.filter_isWritten_eq_nil hafter, List.append_nil,
        hon.tokens_eq, hlater]
    · exact absurd (hl.symm.trans (hdeep.mpr hup.tooDeep)) Bool.false_ne_true
    · rw [hd, hup.diagnostics, Array.toList_push, List.getLast?_concat]

theorem Ends.leaves_eq (h : Ends limit (ofString line) laid place l)
    (hd : l.diagnostics = (ofString line).diagnostics) : laid ++ [l.ending] = tokensOf line := by
  rw [tokensOf_eq]
  cases h with
  | whole hon hrest hending hquiet =>
    rw [hon.tokens_eq, tokens_of_nil hrest, hon.filter_eq_self (hquiet.symm.trans hd), hending,
      hon.stop]
  | early hon _ _ hnote =>
    obtain ⟨more, hmore, -⟩ := hon.notes
    have hsize := congrArg List.length (congrArg Array.toList (hnote.symm.trans hd))
    rw [Array.toList_push, hmore] at hsize
    simp at hsize
  | givenUp _ hon hup _ _ hnote =>
    obtain ⟨more, hmore, -⟩ := hon.notes
    have hsize := congrArg List.length (congrArg Array.toList (hnote.symm.trans hd))
    rw [hup.diagnostics, Array.toList_push, hmore] at hsize
    simp at hsize

theorem Ends.standsOn (h : Ends limit (ofString line) laid place l) {t : Token}
    (ht : t ∈ laid.filter Token.isWritten) : t.StandsOn line := by
  obtain ⟨next, later, htokens, -⟩ := h.exists_next
  have hmem : t ∈ (ofString line).tokens := by
    rw [← tokensOf_eq, htokens]
    exact List.mem_append_left _ ht
  rcases List.mem_append.mp hmem with hmem | hmem
  · exact standsOn_of_mem hmem
  · -- the end of the line is empty, so no leaf that stands on the line
    rw [List.mem_singleton.mp hmem] at ht
    exact absurd (List.mem_filter.mp ht).2 Bool.false_ne_true

/-- **No token is lost, read twice or moved.** Whatever expressions are read off a line, the leaves
that stand on it are, from left to right, its first tokens. The next token is the one that was found
where the end of the line was expected, which is the end itself if nothing is left; or, if the line was
given up, the one to which the note about that points. Each leaf that stands on the line is found at
its position, and no leaf stands further on than a later one. If nothing is noted, the leaves and the
end of the line are its tokens. -/
theorem leaves_lossless (line : String) (minimums : List Nat) :
    (∃ next later,
      tokensOf line = (ParsedSeries.ofString line minimums).written ++ next :: later ∧
      ((ParsedSeries.ofString line minimums).last.tooDeep = false →
        next = (ParsedSeries.endPlace line minimums (some nestingLimit)).current ∧
        ((ParsedSeries.ofString line minimums).last.ending = next ∧ later = [] ∨
          next.kind ≠ .ending ∧
            (ParsedSeries.ofString line minimums).last.ending =
              .missing .ending next.position)) ∧
      ((ParsedSeries.ofString line minimums).last.tooDeep = true →
        (ParsedSeries.ofString line minimums).last.diagnostics.toList.getLast? =
          some ⟨next.span, .nestedTooDeep nestingLimit⟩)) ∧
    (∀ t ∈ (ParsedSeries.ofString line minimums).written, t.StandsOn line) ∧
    ((ParsedSeries.ofString line minimums).leaves ++
      [(ParsedSeries.ofString line minimums).last.ending]).Pairwise
        (fun s t => s.position ≤ t.position) ∧
    ((ParsedSeries.ofString line minimums).last.diagnostics = (Parser.ofString line).diagnostics →
      (ParsedSeries.ofString line minimums).leaves ++
        [(ParsedSeries.ofString line minimums).last.ending] = tokensOf line) := by
  have hends := ParsedSeries.ends line minimums (some nestingLimit)
  refine ⟨?_, fun t ht => hends.standsOn ht, ParsedSeries.places line minimums _,
    hends.leaves_eq⟩
  obtain ⟨next, later, htokens, hshallow, hdeep⟩ := hends.exists_next
  refine ⟨next, later, htokens, hshallow, fun hl => ?_⟩
  obtain ⟨n, hn, hlast⟩ := hdeep hl
  obtain rfl : nestingLimit = n := Option.some.inj hn
  exact hlast

/-- A closing parenthesis is left over where the end is expected; two numbers are read one behind the
other; and a line is given up at the number inside its parentheses. -/
theorem leaves_lossless_leftOver :
    (∃ next later, tokensOf "(1 2)" = (ParsedSeries.ofString "(1 2)" [0]).written ++ next :: later ∧
      next.kind = .closeParen ∧ next.position = 4) ∧
    (ParsedSeries.ofString "1 2" [0]).leaves ++ [(ParsedSeries.ofString "1 2" [0]).last.ending] =
      tokensOf "1 2" ∧
    ∃ next later,
      tokensOf (bracketedSum 256 0) =
        (ParsedSeries.ofString (bracketedSum 256 0) [0]).written ++ next :: later ∧
      (ParsedSeries.ofString (bracketedSum 256 0) [0]).last.diagnostics.toList.getLast? =
        some ⟨next.span, .nestedTooDeep nestingLimit⟩ := by
  refine ⟨?leftOver, ?quiet, ?deep⟩
  case leftOver =>
    obtain ⟨⟨next, later, htokens, hshallow, -⟩, -⟩ := leaves_lossless "(1 2)" [0]
    obtain ⟨rfl, -⟩ := hshallow (by decide +kernel)
    exact ⟨_, later, htokens, by decide +kernel, by decide +kernel⟩
  case quiet =>
    obtain ⟨-, -, -, hquiet⟩ := leaves_lossless "1 2" [0]
    exact hquiet (by decide +kernel)
  case deep =>
    obtain ⟨-, hlast⟩ :=
      ParsedSeries.tooDeep_of_parsedLine (tooDeep_bracketedSum (Nat.le_refl 256) 0)
    obtain ⟨⟨next, later, htokens, -, hnote⟩, -⟩ := leaves_lossless (bracketedSum 256 0) [0]
    exact ⟨next, later, htokens, hnote hlast⟩

end Reckoner
