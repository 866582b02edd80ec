import Reckoner.Proofs.Expression.Precedence
import Reckoner.Proofs.Token.Segmentation

/-!
# Lines and trees

A tree is written by listing its leaves. The line is read as that tree again, so trees that respect
precedence and lines are the same thing up to blanks.

* `Token.Genuine`: a token that the lexer hands out; `words_spelled`: tokens that are listed with
  blanks between them are the words of the list.
* **`readAs_of_words`**: a line with the leaves of a shaped tree for its words is read as that tree.
* **`reading_respects_precedence`**: shaped trees are what is read.
-/

namespace Reckoner

open Lexeme

/-! ## Tokens that are listed -/

namespace Token

/-- The token as if its line started with it. -/
def unplaced (t : Token) : Token :=
  { t with position := 0 }

theorem kind_unplaced (t : Token) : t.unplaced.kind = t.kind :=
  rfl

/-- A token that the lexer hands out on some line without a complaint about it. -/
def Genuine (t : Token) : Prop :=
  ∃ line, t ∈ (Lexer.ofString line).drain.1 ∧
    ∀ d ∈ (Lexer.ofString line).drain.2.diagnostics, d.span ≠ t.span

/-- The line that lists tokens, a blank behind each. -/
def spelled : List Token → String
  | [] => ""
  | t :: ts => t.literal ++ " " ++ spelled ts

end Token

open Token

/-- A genuine token is a piece with which nothing is wrong. -/
theorem Token.Genuine.exists_lexeme {t : Token} (h : t.Genuine) (he : t.kind ≠ .ending) :
    ∃ x : Lexeme, t = x.token t.position ∧ cut x.text = [x] ∧ ∀ n, x.diagnostic? n = none := by
  obtain ⟨line, hmem, hclean⟩ := h
  rw [← Array.mem_toList_iff, Lexer.toList_drain] at hmem
  rcases List.mem_append.mp hmem with hmem | hmem
  · obtain ⟨⟨x, n⟩, hx, rfl⟩ := List.mem_map.mp hmem
    have hnone : x.diagnostic? n = none := by
      refine Option.eq_none_iff_forall_ne_some.mpr fun d hd => ?_
      have hclass := inClass_of_mem_cut (mem_of_mem_placed hx)
      refine hclean d ?_ (hclass.span_eq hd)
      rw [Lexer.diagnostics_drain, List.mem_toArray]
      exact List.mem_flatMap.mpr ⟨(x, n), hx, by simp [hd]⟩
    exact ⟨x, rfl, cut_text (mem_of_mem_placed hx), diagnostic?_eq_none hnone⟩
  · rw [List.mem_singleton.mp hmem] at he
    exact absurd rfl he

theorem Token.genuine_first (c : Char) (cs : List Char)
    (h : (first c cs).1.diagnostic? 0 = none) : ((first c cs).1.token 0).Genuine := by
  let line := String.ofList (first c cs).1.text
  have hcut : cut line.toList = [(first c cs).1] := by
    rw [String.toList_ofList, cut_text_first]
  refine ⟨line, Array.mem_toList_iff.mp ?_, fun d hd => ?_⟩
  · rw [Lexer.toList_drain, hcut]
    exact List.mem_cons_self
  · rw [Lexer.diagnostics_drain, notes, hcut] at hd
    simp [placed, h] at hd

namespace Lexeme

variable {x : Lexeme} {c : Char} {s : List Char}

theorem isBlank_of_kind_first (h : (first c s).1.kind ≠ .blank) : Text.isBlank c = false := by
  cases hc : c.isDigit with
  | true => exact isBlank_of_isDigit hc
  | false =>
    refine Bool.eq_false_iff.mpr fun hb => h ?_
    simp [first, Opening.ofChar, hc, hb]

theorem takes_space (h : x.kind ≠ .blank) : x.takes ' ' = false :=
  takes_of_isBlank rfl h

theorem cut_space : cut [' '] = [⟨.blank, [' ']⟩] := by
  rw [cut_cons, show first ' ' [] = (⟨.blank, [' ']⟩, []) from rfl, cut_nil]

theorem words_text (hx : cut x.text = [x]) (hk : x.kind.isSeparator = false) (position : Nat) :
    words position x.text = [x.token position] := by
  simp [words, hx, placed, hk]

theorem notes_text (hx : cut x.text = [x]) (hn : ∀ n, x.diagnostic? n = none) (position : Nat) :
    notes position x.text = [] := by
  simp [notes, hx, placed, hn]

theorem words_space (position : Nat) : words position [' '] = [] := by
  rw [words, cut_space]
  rfl

theorem notes_space (position : Nat) : notes position [' '] = [] := by
  rw [notes, cut_space]
  rfl

theorem exists_text_eq (hx : cut x.text = [x]) (hk : x.kind ≠ .blank) :
    ∃ c s, x.text = c :: s ∧ Text.isBlank c = false := by
  cases htext : x.text with
  | nil => simp [htext] at hx
  | cons c s =>
    rw [htext, cut_cons] at hx
    rw [← (List.cons.inj hx).1] at hk
    exact ⟨c, s, rfl, isBlank_of_kind_first hk⟩

end Lexeme

namespace Token

variable {t : Token} {ts : List Token}

/-- A genuine token that is part of an expression. -/
def IsWord (t : Token) : Prop :=
  t.Genuine ∧ t.kind.isSeparator = false ∧ t.kind ≠ .ending

theorem IsWord.exists_lexeme (h : t.IsWord) :
    ∃ x : Lexeme, t = x.token t.position ∧ cut x.text = [x] ∧ (∀ n, x.diagnostic? n = none) ∧
      x.kind.isSeparator = false := by
  obtain ⟨hgen, hsep, hend⟩ := h
  obtain ⟨x, ht, hcut, hnone⟩ := hgen.exists_lexeme hend
  rw [ht] at hsep
  exact ⟨x, ht, hcut, hnone, hsep⟩

theorem toList_spelled {x : Lexeme} (ht : t = x.token t.position) :
    (spelled (t :: ts)).toList = x.text ++ ([' '] ++ (spelled ts).toList) := by
  rw [spelled, ht]
  simp [Lexeme.token]

theorem kind_ne_blank {x : Lexeme} (h : x.kind.isSeparator = false) : x.kind ≠ .blank := by
  intro hb
  rw [hb] at h
  exact absurd h nofun

theorem apart_space (h : ∀ t ∈ ts, t.IsWord) : Apart [' '] (spelled ts).toList := by
  refine fun y hy d hd => ?_
  rw [cut_space] at hy
  obtain rfl : ⟨.blank, [' ']⟩ = y := Option.some.inj hy
  cases ts with
  | nil => simp [spelled] at hd
  | cons t ts =>
    obtain ⟨x, ht, hcut, -, hsep⟩ := (h t List.mem_cons_self).exists_lexeme
    obtain ⟨c, s, htext, hblank⟩ := exists_text_eq hcut (kind_ne_blank hsep)
    rw [toList_spelled ht, htext] at hd
    obtain rfl : c = d := Option.some.inj hd
    exact hblank


theorem words_spelled (h : ∀ t ∈ ts, t.IsWord) (position : Nat) :
    (words position (spelled ts).toList).map unplaced = ts.map unplaced ∧
      notes position (spelled ts).toList = [] := by
  induction ts generalizing position with
  | nil => simp [spelled, words, notes, placed]
  | cons t ts ih =>
    obtain ⟨ht, hts⟩ := List.forall_mem_cons.mp h
    obtain ⟨x, ht, hcut, hnone, hsep⟩ := ht.exists_lexeme
    have hleft : Apart x.text ([' '] ++ (spelled ts).toList) := by
      refine apart_of_takes fun y hy => ?_
      rw [hcut, List.mem_singleton] at hy
      rw [hy]
      exact takes_space (kind_ne_blank hsep)
    have hright := apart_space hts
    obtain ⟨hwords, hnotes⟩ := ih hts (position + bytes x.text + bytes [' '])
    rw [toList_spelled ht, words_append hleft, words_append hright, notes_append hleft,
      notes_append hright, words_text hcut hsep, notes_text hcut hnone, words_space, notes_space,
      hnotes]
    refine ⟨?_, rfl⟩
    rw [List.nil_append, List.singleton_append, List.map_cons, List.map_cons, hwords, ht]
    rfl

end Token

/-! ## Trees that are read back -/

theorem TokenKind.isSeparator_of_precedence {k : TokenKind}
    (h : k.unaryPrecedence? ≠ none ∨ k.binaryPrecedence? ≠ none) :
    k.isSeparator = false ∧ k ≠ .ending := by
  cases k <;> simp_all [isSeparator, unaryPrecedence?, binaryPrecedence?]

namespace Expression

variable {e e' : Expression}

theorem Proper.kind_of_mem_leaves (hp : e.Proper) {t : Token} (ht : t ∈ e.leaves) :
    t.kind.isSeparator = false ∧ t.kind ≠ .ending := by
  induction e with
  | literal _ =>
    obtain rfl := List.mem_singleton.mp ht
    rcases hp with hk | hk | hk <;> simp [hk, TokenKind.isSeparator]
  | unary op e ih =>
    rcases List.mem_cons.mp ht with rfl | ht
    · exact TokenKind.isSeparator_of_precedence (.inl hp.1)
    · exact ih hp.2 ht
  | binary l op r ihl ihr =>
    rcases List.mem_append.mp ht with ht | ht
    · exact ihl hp.2.1 ht
    rcases List.mem_cons.mp ht with rfl | ht
    · exact TokenKind.isSeparator_of_precedence (.inr hp.1)
    · exact ihr hp.2.2 ht
  | parenthesized o e c ih =>
    obtain ⟨ho, hc, he⟩ := hp
    simp only [leaves, List.mem_cons, List.mem_append, List.not_mem_nil, or_false] at ht
    rcases ht with (rfl | ht) | rfl
    · simp [ho, TokenKind.isSeparator]
    · exact ih he ht
    · simp [hc, TokenKind.isSeparator]

end Expression

/-- The line is read as the tree `e`, up to the places of the tokens, and every token of the line has
its place in it; `notes` is all that is noted. -/
structure ReadAs (line : String) (e : Expression) (notes : Array Diagnostic) : Prop where
  root : (ParsedLine.ofString line).root.map unplaced = e.map unplaced
  leaves : (ParsedLine.ofString line).root.leaves = (Parser.ofString line).rest
  ending : (ParsedLine.ofString line).ending = .ending line.utf8ByteSize
  diagnostics : (ParsedLine.ofString line).diagnostics = notes

theorem exists_ofString_eq {limit : Option Nat} {line : String} {e : Expression} (hs : e.Shaped 0)
    (hp : e.Proper) (hn : ∀ n ∈ limit, e.height ≤ n)
    (hwords : (Parser.ofString line).rest.map unplaced = e.leaves.map unplaced) :
    ∃ e' : Expression, e'.map unplaced = e.map unplaced ∧
      e'.leaves = (Parser.ofString line).rest ∧ ParsedLine.ofString line limit =
        ⟨e', .ending line.utf8ByteSize, (Parser.ofString line).diagnostics⟩ := by
  obtain ⟨e', hleaves, hmap⟩ := e.exists_leaves_eq hwords
  have hs' : e'.Shaped 0 := by
    rw [← Expression.shaped_map kind_unplaced, hmap]
    exact (Expression.shaped_map kind_unplaced e).mpr hs
  have hp' : e'.Proper := by
    rw [← Expression.proper_map kind_unplaced, hmap]
    exact (Expression.proper_map kind_unplaced e).mpr hp
  have hheight : e'.height = e.height := by
    rw [← e'.height_map (f := unplaced), hmap, e.height_map]
  have hstop : (Parser.ofString line).stop = line.utf8ByteSize := by
    rw [Parser.ofString_eq]
  have hdepth : (Parser.ofString line).depth = 0 := rfl
  refine ⟨e', hmap, hleaves, ?_⟩
  rw [ParsedLine.ofString, Parser.finish_of_shaped hs' hp' hleaves.symm, hstop]
  intro n hmem
  have := hn n hmem
  omega

/-- **A line with the leaves of a shaped tree for its words is read as that tree.** -/
theorem readAs_of_words {line : String} {e : Expression} (hs : e.Shaped 0) (hp : e.Proper)
    (hn : e.height ≤ nestingLimit)
    (hwords : (Parser.ofString line).rest.map unplaced = e.leaves.map unplaced) :
    ReadAs line e (Parser.ofString line).diagnostics := by
  have hfits : ∀ n ∈ some nestingLimit, e.height ≤ n := by
    intro n hmem
    obtain rfl : nestingLimit = n := Option.some.inj hmem
    exact hn
  obtain ⟨e', hmap, hleaves, hread⟩ := exists_ofString_eq hs hp hfits hwords
  constructor
  · rw [hread, hmap]
  · rw [hread, hleaves]
  · rw [hread]
  · rw [hread]

theorem words_spelled_leaves {e : Expression} (hp : e.Proper) (hg : ∀ t ∈ e.leaves, t.Genuine) :
    (Parser.ofString (spelled e.leaves)).rest.map unplaced = e.leaves.map unplaced ∧
      (Parser.ofString (spelled e.leaves)).diagnostics = #[] := by
  have hleaves : ∀ t ∈ e.leaves, t.IsWord := fun t ht => ⟨hg t ht, hp.kind_of_mem_leaves ht⟩
  obtain ⟨hwords, hnotes⟩ := words_spelled hleaves 0
  rw [Parser.ofString_eq]
  exact ⟨hwords, congrArg List.toArray hnotes⟩

theorem readAs_spelled {e : Expression} (hs : e.Shaped 0) (hp : e.Proper)
    (hn : e.height ≤ nestingLimit) (hg : ∀ t ∈ e.leaves, t.Genuine) :
    ReadAs (spelled e.leaves) e #[] := by
  obtain ⟨hwords, hnotes⟩ := words_spelled_leaves hp hg
  exact hnotes ▸ readAs_of_words hs hp hn hwords

theorem Expression.map_eq_of_leaves_eq {e e' : Expression} (hs : e.Shaped 0) (hp : e.Proper)
    (hs' : e'.Shaped 0) (hp' : e'.Proper) (h : e'.leaves.map unplaced = e.leaves.map unplaced) :
    e'.map unplaced = e.map unplaced := by
  have hk := kind_unplaced
  refine eq_of_leaves_eq ((shaped_map hk e').mpr hs') ((proper_map hk e').mpr hp')
    ((shaped_map hk e).mpr hs) ((proper_map hk e).mpr hp) ?_
  rw [leaves_map, leaves_map, h]

/-- **Reading by precedence builds exactly the trees that respect precedence.** At every place and
above every minimum a shaped tree is read. And a shaped tree that is made of genuine tokens in proper
places and fits the limit is what every line with its leaves for words is read as, with no other notes
than those of the lexer; the list of its leaves is such a line, without any notes; and no other shaped
and proper tree has these leaves. -/
theorem reading_respects_precedence :
    (∀ (p : Parser) (m : Nat), (Parser.nested (some nestingLimit) m p).expression.Shaped m) ∧
    ∀ e : Expression, e.Shaped 0 → e.Proper → e.height ≤ nestingLimit →
      (∀ t ∈ e.leaves, t.Genuine) →
        (∀ line, (Parser.ofString line).rest.map unplaced = e.leaves.map unplaced →
          ReadAs line e (Parser.ofString line).diagnostics) ∧
        ReadAs (spelled e.leaves) e #[] ∧
        ∀ e' : Expression, e'.Shaped 0 → e'.Proper →
          e'.leaves.map unplaced = e.leaves.map unplaced → e'.map unplaced = e.map unplaced := by
  refine ⟨fun p m => ?_, fun e hs hp hn hg => ⟨fun line => ?_, ?_, fun e' hs' hp' => ?_⟩⟩
  · exact (((Task.nested m).isRead (some nestingLimit) p).shaped trivial).1
  · exact readAs_of_words hs hp hn
  · exact readAs_spelled hs hp hn hg
  · exact Expression.map_eq_of_leaves_eq hs hp hs' hp'

/-- A difference in which the square takes the power and not the whole. -/
def squareMinus : Expression :=
  .binary
    (.unary ⟨.sqrWord, 0, "sqr", none⟩
      (.binary (.literal ⟨.number, 0, "2", some (.integer 2)⟩) ⟨.caret, 0, "^", none⟩
        (.literal ⟨.number, 0, "3", some (.integer 3)⟩)))
    ⟨.minus, 0, "-", none⟩ (.literal ⟨.number, 0, "4", some (.integer 4)⟩)

theorem readAs_squareMinus : ReadAs "sqr 2 ^ 3 - 4 " squareMinus #[] := by
  have hline : spelled squareMinus.leaves = "sqr 2 ^ 3 - 4 " := by decide
  rw [← hline]
  refine (reading_respects_precedence.2 squareMinus (by decide) (by decide) (by decide) ?_).2.1
  intro t ht
  simp only [squareMinus, Expression.leaves, List.mem_cons, List.mem_append, List.not_mem_nil,
    or_false] at ht
  rcases ht with (rfl | rfl | rfl | rfl) | rfl | rfl
  · exact genuine_first 's' ['q', 'r'] rfl
  · exact genuine_first '2' [] rfl
  · exact genuine_first '^' [] rfl
  · exact genuine_first '3' [] rfl
  · exact genuine_first '-' [] rfl
  · exact genuine_first '4' [] rfl

end Reckoner
