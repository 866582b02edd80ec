import Reckoner.Proofs.Expression.Lossless
import Reckoner.Proofs.Token.Notes

/-!
# Notes about tokens

What is noted while a line is read points at the token that was next when it was noted. No token is
left for an earlier one, so no note points in front of an earlier note.

* `Parser.PointsOn`: the notes that are taken on the way from one place to another point at tokens
  in their order; `Parser.Walk.pointsOn`: those of every walk do.
* `ParsedLine.exists_notes`: so do all notes that are added to those of the lexer.
-/

namespace Reckoner

open Reckoner.Parser

variable {limit : Option Nat} {p q r : Parser} {ts us : List Token} {more later : List Diagnostic}
  {line : String} {t : Token}

namespace Parser

/-- The notes `more` that are taken on the way from `p` to `q` point at tokens, and none of them
points in front of an earlier one, or behind the token that is next at `q`. -/
structure PointsOn (p q : Parser) (more : List Diagnostic) : Prop where
  leadsTo : p.LeadsTo q more
  tokens : ∀ d ∈ more, ∃ t ∈ p.tokens, d.span = t.span
  passed : q.Passed (more.map fun d => d.span.start)

theorem PointsOn.refl (p : Parser) : p.PointsOn p [] where
  leadsTo := .of_eq rfl (List.suffix_refl _) rfl rfl
  tokens _ hd := absurd hd List.not_mem_nil
  passed := .nil p

theorem PointsOn.next (h : p.PointsOn q more) (hp : p.Ordered) (hlead : q.LeadsTo r later)
    (hlater : ∀ d ∈ later, d.span = q.current.span) : p.PointsOn r (more ++ later) := by
  have hstart : ∀ n ∈ later.map (fun d => d.span.start), n = q.current.position := by
    intro n hn
    obtain ⟨d, hd, rfl⟩ := List.mem_map.mp hn
    rw [hlater d hd]
    rfl
  refine ⟨h.leadsTo.trans hlead, fun d hd => ?_, ?_⟩
  · rcases List.mem_append.mp hd with hd | hd
    · exact h.tokens d hd
    · exact ⟨q.current, h.leadsTo.tokens_suffix.subset q.current_mem_tokens, hlater d hd⟩
  · rw [List.map_append]
    exact h.passed.next (hp.of_leadsTo h.leadsTo).1 hlead hstart

theorem Walk.pointsOn (h : Walk limit p ts q) (hp : p.Ordered) : ∃ more, p.PointsOn q more := by
  induction h with
  | refl => exact ⟨[], .refl p⟩
  | step _ hs ih =>
    obtain ⟨more, hmore⟩ := ih
    obtain ⟨later, hlead, hlater⟩ := hs.exists_leadsTo
    exact ⟨more ++ later, hmore.next hp hlead hlater⟩

theorem span_of_expect {kind : TokenKind} {d : Diagnostic}
    (hd : d ∈ if p.current.kind = kind then [] else p.note (.unexpectedToken p.current.kind kind)) :
    d.span = p.current.span := by
  split at hd
  · exact absurd hd List.not_mem_nil
  · rw [eq_of_mem_note hd]

end Parser

/-- **What is added to the notes of the lexer points at tokens in their order.** -/
theorem ParsedLine.exists_notes (line : String) (limit : Option Nat) : ∃ more,
    (ofString line limit).diagnostics.toList = (Parser.ofString line).diagnostics.toList ++ more ∧
    more.Pairwise (fun d d' => d.span.start ≤ d'.span.start) ∧
    ∀ d ∈ more, ∃ t ∈ tokensOf line, d.span = t.span := by
  obtain ⟨ts, -, hwalk⟩ := ((Task.nested 0).isRead limit (Parser.ofString line)).exists_walk
  obtain ⟨more, hmore⟩ := hwalk.pointsOn (ordered_ofString line)
  have hwhole := hmore.next (ordered_ofString line) (.expect .ending _) fun d hd => span_of_expect hd
  refine ⟨_, hwhole.leadsTo.diagnostics, List.pairwise_map.mp hwhole.passed.ordered, ?_⟩
  rw [tokensOf_eq]
  exact hwhole.tokens

theorem covers_of_mem_tokensOf (ht : t ∈ tokensOf line) : t.span.Covers line t.literal ∧
    (t.kind = .ending → t.span = ⟨line.utf8ByteSize, 0⟩) := by
  rw [tokensOf_eq, tokens, stop_ofString] at ht
  rcases List.mem_append.mp ht with ht | ht
  · exact ⟨(standsOn_of_mem ht).covers, fun hk => absurd hk (kind_ofString_ne_ending ht)⟩
  · rw [List.mem_singleton.mp ht]
    exact ⟨⟨line, "", by simp [Token.ending, Token.missing], rfl⟩, fun _ => rfl⟩

end Reckoner
