import Reckoner.Proofs.Expression.Series
import Reckoner.Proofs.Typing.Placeholder

/-!
# Missing tokens

Where a token is missing, a placeholder takes its place in the tree, and this is noted. So a line about
which nothing was noted has no placeholders, and what is evaluated are the values of literals that
stand on the line.

* `ParsedLine.missing`: the placeholders of a line, with its end if the line goes on there.
* `Ends.noted`, `Ends.noted_of_tooDeep`: the notes about a line are those about its placeholders.
* `ParsedLine.value_of_silent`: each literal of a line that is read without notes has a value.
* **`placeholders_noted`**: no placeholder goes unnoticed.
-/

namespace Reckoner

open Reckoner.Parser

/-- The tokens that are missing on a line: those for which a placeholder stands in the tree, and the
end if something else stands where it was expected. -/
def ParsedLine.missing (line : String) (l : ParsedLine) : List Token :=
  l.root.leaves.filter Token.isEmpty ++
    if l.ending.position = line.utf8ByteSize then [] else [l.ending]

variable {limit : Option Nat} {place : Parser} {laid : List Token} {l : ParsedLine} {line : String}

/-! ## Placeholders and notes -/

/-- **As long as a line is not given up, its placeholders and the notes about it correspond.** -/
theorem Ends.noted (h : Ends limit (ofString line) laid place l) (hdeep : l.tooDeep = false) :
    ∃ notes, l.diagnostics.toList = (ofString line).diagnostics.toList ++ notes ∧
      List.Forall₂ Token.NotedBy (laid.filter Token.isEmpty ++
        if l.ending.position = line.utf8ByteSize then [] else [l.ending]) notes := by
  have hup := h.tooDeep_iff
  cases h with
  | whole hon _ hending hd =>
    obtain ⟨notes, hmore, hnoted⟩ := hon.notes
    have hend : l.ending.position = line.utf8ByteSize := by
      rw [hending, stop_ofString]
      rfl
    rw [if_pos hend, List.append_nil, hd]
    exact ⟨notes, hmore, hnoted⟩
  | early hon hk hending hd =>
    obtain ⟨notes, hmore, hnoted⟩ := hon.notes
    have hmem : place.current ∈ (ofString line).rest := by
      rw [hon.rest, rest_eq_current_cons hk]
      exact List.mem_append_right _ List.mem_cons_self
    have hend : l.ending.position ≠ line.utf8ByteSize := by
      rw [hending]
      exact (position_lt_of_mem hmem).ne
    have hlast : l.ending.NotedBy
        ⟨place.current.span, .unexpectedToken place.current.kind .ending⟩ := by
      rw [hending]
      exact ⟨rfl, rfl, place.current.kind, hk, rfl⟩
    rw [if_neg hend, hd, Array.toList_push, hmore, List.append_assoc]
    exact ⟨_, rfl, List.rel_append hnoted (.cons hlast .nil)⟩
  | givenUp _ _ hgiven _ _ _ =>
    rw [hup.mpr hgiven.tooDeep] at hdeep
    exact absurd hdeep.symm Bool.false_ne_true

theorem Ends.noted_of_tooDeep (h : Ends limit (ofString line) laid place l)
    (hdeep : l.tooDeep = true) : ∃ n ∈ limit, ∃ before span front later,
      l.diagnostics.toList = (ofString line).diagnostics.toList ++ before ++
        [⟨span, .nestedTooDeep n⟩] ∧
      laid.filter Token.isEmpty = front ++ later ∧ List.Forall₂ Token.NotedBy front before ∧
      ∀ t ∈ later, t.IsPlaceholder := by
  have hup := h.tooDeep_iff.mp hdeep
  cases h with
  | whole hon _ _ _ => exact absurd (hon.tooDeep.symm.trans hup) Bool.false_ne_true
  | early hon _ _ _ => exact absurd (hon.tooDeep.symm.trans hup) Bool.false_ne_true
  | @givenUp n q before after _ _ hn hon hgiven hafter _ hd =>
    obtain ⟨notes, hmore, hnoted⟩ := hon.notes
    refine ⟨n, hn, notes, q.current.span, before.filter Token.isEmpty,
      after.filter Token.isEmpty, ?_, List.filter_append _ _, hnoted, fun t ht => ?_⟩
    · rw [hd, hgiven.diagnostics, Array.toList_push, hmore]
    · exact hafter t (List.mem_filter.mp ht).1

/-! ## Lines about which nothing is noted -/

namespace ParsedLine

theorem ends (line : String) : ∃ place, Ends (some nestingLimit) (Parser.ofString line)
    (ofString line).root.leaves place (ofString line) := by
  have h := ParsedSeries.ends line [] (some nestingLimit)
  have hleaves : (ParsedSeries.ofString line []).leaves = (ofString line).root.leaves :=
    List.append_nil _
  rw [hleaves] at h
  exact ⟨_, h⟩

theorem tooDeep_of_silent
    (hd : (ofString line).diagnostics = (Parser.ofString line).diagnostics) :
    (ofString line).tooDeep = false := by
  rw [Bool.eq_false_iff]
  intro hdeep
  obtain ⟨d, hmem, hd'⟩ := tooDeep_eq_true.mp hdeep
  rw [hd] at hmem
  rw [isTooDeep_ofString hmem] at hd'
  exact Bool.false_ne_true hd'

theorem missing_of_silent
    (hd : (ofString line).diagnostics = (Parser.ofString line).diagnostics) :
    (ofString line).missing line = [] := by
  obtain ⟨place, hends⟩ := ends line
  obtain ⟨notes, hnotes, hnoted⟩ := hends.noted (tooDeep_of_silent hd)
  rw [hd, List.self_eq_append_right] at hnotes
  rw [hnotes, List.forall₂_nil_right_iff] at hnoted
  exact hnoted

theorem value_of_silent (hd : (ofString line).diagnostics = (Parser.ofString line).diagnostics)
    {t : Token} (ht : .literal t ∈ (ofString line).root.parts) : t.value = some t.denoted := by
  obtain ⟨-, hproper, hleaves⟩ :=
    Parser.shaped_of_finish rfl (fun t ht => Parser.kind_ofString_ne_ending ht) hd
  have hmem : t ∈ (Parser.ofString line).rest := hleaves ▸ Expression.mem_leaves_of_mem_parts ht
  obtain ⟨⟨x, position⟩, -, rfl⟩ := exists_piece hmem
  have hkind : x.kind = .number ∨ x.kind = .trueWord ∨ x.kind = .falseWord :=
    hproper.of_mem_parts ht
  rcases hkind with hk | hk | hk <;> simp [Token.denoted, Lexeme.token, Lexeme.value?, hk]

end ParsedLine

theorem Analysis.diagnostics_eq_empty_iff : (ofString line).diagnostics = #[] ↔
    ∀ found, Reckoner.evaluate line ≠ .ok (.diagnostics found) := by
  rw [Reckoner.evaluate, evaluate]
  constructor
  · intro hd found
    rw [hd, Array.isEmpty_empty, if_pos rfl]
    cases (ofString line).typed.evaluate with
    | ok v => simp [Except.map]
    | error f => simp [Except.map]
  · intro h
    by_contra hd
    exact h _ (if_neg (by simpa using hd))

theorem Analysis.parsed_of_diagnostics (hd : (ofString line).diagnostics = #[]) :
    (ParsedLine.ofString line).diagnostics = (Parser.ofString line).diagnostics := by
  obtain ⟨typed, own, hel⟩ := (ParsedLine.ofString line).root.exists_elaborate
  obtain ⟨more, hmore⟩ := (Parser.ofString line).exists_diagnostics_finish (some nestingLimit)
  have hparsed : (ParsedLine.ofString line).diagnostics ++ own = #[] :=
    (congrArg Prod.snd (hel _)).symm.trans hd
  have hnone := (Array.append_eq_empty_iff.mp hparsed).1
  have hempty : (Parser.ofString line).diagnostics.toList ++ more = [] :=
    hmore.symm.trans (congrArg Array.toList hnone)
  rw [hnone, Array.toList_eq_nil_iff.mp (List.append_eq_nil_iff.mp hempty).1]

/-- **No placeholder goes unnoticed.** If a line is not given up, the notes about it behind those of
the lexer correspond to the tokens that are missing, from left to right: each says at the place of a
placeholder that a token of its kind was expected. If the line is given up, the notes in front of the
one that says so correspond to the first placeholders, and nothing is said about the others. So where
nothing is noted, nothing is missing and each literal has a value, and no line is evaluated for which
the value of a placeholder would be made up. -/
theorem placeholders_noted (line : String) :
    ((ParsedLine.ofString line).tooDeep = false → ∃ notes,
      (ParsedLine.ofString line).diagnostics.toList =
        (Parser.ofString line).diagnostics.toList ++ notes ∧
      List.Forall₂ Token.NotedBy ((ParsedLine.ofString line).missing line) notes) ∧
    ((ParsedLine.ofString line).tooDeep = true → ∃ before span front later,
      (ParsedLine.ofString line).diagnostics.toList =
        (Parser.ofString line).diagnostics.toList ++ before ++
          [⟨span, .nestedTooDeep nestingLimit⟩] ∧
      (ParsedLine.ofString line).root.leaves.filter Token.isEmpty = front ++ later ∧
      List.Forall₂ Token.NotedBy front before ∧ ∀ t ∈ later, t.IsPlaceholder) ∧
    ((ParsedLine.ofString line).diagnostics = (Parser.ofString line).diagnostics →
      (ParsedLine.ofString line).missing line = [] ∧
      ∀ t, .literal t ∈ (ParsedLine.ofString line).root.parts → t.value = some t.denoted) ∧
    ((∀ found, evaluate line ≠ .ok (.diagnostics found)) →
      (ParsedLine.ofString line).missing line = [] ∧
      ∀ t, .literal t ∈ (ParsedLine.ofString line).root.parts → t.value = some t.denoted) := by
  obtain ⟨place, hends⟩ := ParsedLine.ends line
  refine ⟨fun hdeep => hends.noted hdeep, fun hdeep => ?_, fun hd => ?_, fun hanswer => ?_⟩
  · obtain ⟨n, hn, before, span, front, later, hnotes⟩ := hends.noted_of_tooDeep hdeep
    obtain rfl : nestingLimit = n := Option.some.inj hn
    exact ⟨before, span, front, later, hnotes⟩
  · exact ⟨ParsedLine.missing_of_silent hd, fun t ht => ParsedLine.value_of_silent hd ht⟩
  · have hd := Analysis.parsed_of_diagnostics (Analysis.diagnostics_eq_empty_iff.mpr hanswer)
    exact ⟨ParsedLine.missing_of_silent hd, fun t ht => ParsedLine.value_of_silent hd ht⟩

/-- A number and a parenthesis are missing; a line is given up; a line has nothing wrong with it but
types; and one has nothing wrong with it. -/
theorem placeholders_noted_openSum :
    (∃ notes, (ParsedLine.ofString "(1 +").diagnostics.toList =
        (Parser.ofString "(1 +").diagnostics.toList ++ notes ∧
      List.Forall₂ Token.NotedBy ((ParsedLine.ofString "(1 +").missing "(1 +") notes ∧
      notes.length = 2) ∧
    (∃ before span front later,
      (ParsedLine.ofString (bracketedSum 256 0)).diagnostics.toList =
        (Parser.ofString (bracketedSum 256 0)).diagnostics.toList ++ before ++
          [⟨span, .nestedTooDeep nestingLimit⟩] ∧
      (ParsedLine.ofString (bracketedSum 256 0)).root.leaves.filter Token.isEmpty =
        front ++ later ∧
      List.Forall₂ Token.NotedBy front before ∧ ∀ t ∈ later, t.IsPlaceholder) ∧
    (ParsedLine.ofString "1 + true").missing "1 + true" = [] ∧
    ∀ t, .literal t ∈ (ParsedLine.ofString "1 + 2").root.parts → t.value = some t.denoted := by
  refine ⟨?missing, ?deep, ?silent, ?evaluated⟩
  case missing =>
    obtain ⟨notes, hnotes, hnoted⟩ := (placeholders_noted "(1 +").1 (by decide +kernel)
    refine ⟨notes, hnotes, hnoted, hnoted.length_eq.symm.trans ?_⟩
    decide +kernel
  case deep =>
    exact (placeholders_noted _).2.1 (tooDeep_bracketedSum (Nat.le_refl 256) 0)
  case silent =>
    exact ((placeholders_noted "1 + true").2.2.1 (by decide +kernel)).1
  case evaluated =>
    have hanswer := Analysis.diagnostics_eq_empty_iff.mp
      (show (Analysis.ofString "1 + 2").diagnostics = #[] by decide +kernel)
    exact ((placeholders_noted "1 + 2").2.2.2 hanswer).2

end Reckoner
