import Reckoner.Expression.Parser

/-!
# Cutting lines

The lexer hands out the pieces of a line one at a time; here they are one list, so that lines that
are put together can be compared with their parts.

* `Lexeme.cut`: the pieces of a text; `Lexer.drain_eq`: they are what the lexer hands out.
* `Lexeme.words`, `Lexeme.notes`: the tokens that form expressions, and what is wrong with pieces;
  `Parser.ofString_eq`: they are what is parsed.
* **`Lexeme.cut_append`**: texts are cut apart where the last piece takes nothing more.
* `Lexeme.cut_text`: a piece by itself is cut as it was in its line.
-/

namespace Reckoner

namespace Lexeme

/-- The pieces of a text from left to right. -/
def cut : List Char → List Lexeme
  | [] => []
  | c :: cs => (first c cs).1 :: cut (first c cs).2
termination_by cs => cs.length
decreasing_by exact length_first_lt c cs

/-- The number of bytes of a text. -/
def bytes (s : List Char) : Nat :=
  (String.ofList s).utf8ByteSize

/-- The pieces, each with its place if the first one stands at `position`. -/
def placed (position : Nat) : List Lexeme → List (Lexeme × Nat)
  | [] => []
  | x :: xs => (x, position) :: placed (position + bytes x.text) xs

/-- The tokens of a text at `position` that form expressions. -/
def words (position : Nat) (s : List Char) : List Token :=
  ((placed position (cut s)).filter fun x => !x.1.kind.isSeparator).map fun x => x.1.token x.2

/-- What is wrong with the pieces of a text at `position`. -/
def notes (position : Nat) (s : List Char) : List Diagnostic :=
  (placed position (cut s)).flatMap fun x => (x.1.diagnostic? x.2).toList

variable {s t : List Char} {c d : Char} {x : Lexeme} {position k : Nat}

@[simp] theorem cut_nil : cut [] = [] := by
  rw [cut]

theorem cut_cons (c : Char) (cs : List Char) :
    cut (c :: cs) = (first c cs).1 :: cut (first c cs).2 := by
  rw [cut]

theorem bytes_append (s t : List Char) : bytes (s ++ t) = bytes s + bytes t := by
  rw [bytes, String.ofList_append, String.utf8ByteSize_append]
  rfl

theorem bytes_toList (line : String) : bytes line.toList = line.utf8ByteSize := by
  rw [bytes, String.ofList_toList]

/-! ## The lexer -/

theorem kind_first_ne_ending (c : Char) (cs : List Char) : (first c cs).1.kind ≠ .ending := by
  unfold first Opening.ofChar TokenKind.ofWord
  grind

theorem kind_ne_ending (hx : x ∈ cut s) : x.kind ≠ .ending := by
  induction s using cut.induct with
  | case1 => simp at hx
  | case2 c cs ih =>
    rw [cut_cons] at hx
    rcases List.mem_cons.mp hx with rfl | hx
    · exact kind_first_ne_ending c cs
    · exact ih hx

end Lexeme

open Lexeme

theorem Lexer.drain_of_none {l after : Lexer} (h : l.next? = (none, after)) (read : Array Token) :
    l.drain read = (read, after) := by
  rw [drain]
  split <;> simp_all

theorem Lexer.drain_of_some {l after : Lexer} {token : Token} (h : l.next? = (some token, after))
    (read : Array Token) : l.drain read = after.drain (read.push token) := by
  rw [drain]
  split <;> simp_all

/-- **The lexer hands out the pieces in their places** and the end of the line behind them. -/
theorem Lexer.drain_eq (l : Lexer) (read : Array Token) (hl : l.ended = false) :
    (l.drain read).1.toList =
        read.toList ++ (placed l.position (cut l.rest)).map (fun x => x.1.token x.2) ++
          [.ending (l.position + bytes l.rest)] ∧
      (l.drain read).2.position = l.position + bytes l.rest ∧
      (l.drain read).2.diagnostics.toList = l.diagnostics.toList ++
        (placed l.position (cut l.rest)).flatMap fun x => (x.1.diagnostic? x.2).toList := by
  generalize hs : l.rest = s
  induction s using cut.induct generalizing l read with
  | case1 =>
    have hlast : l.next? = (some (.ending l.position), { l with ended := true }) := by
      simp [next?, hl, next_of_nil hs, hs]
    have hnone : ({ l with ended := true } : Lexer).next? = (none, { l with ended := true }) := by
      simp [next?]
    rw [drain_of_some hlast, drain_of_none hnone]
    simp [placed, bytes]
  | case2 c cs ih =>
    let after : Lexer := { l.next.2 with ended := false }
    have hnext : l.next? = (some ((first c cs).1.token l.position), after) := by
      simp [next?, hl, hs, after, next]
    have hplace : after.position = l.position + bytes (first c cs).1.text := by
      simp [after, next, hs, Span.stop, Token.span, Lexeme.token, bytes]
    have hmore : after.diagnostics =
        l.diagnostics ++ ((first c cs).1.diagnostic? l.position).toArray := by
      simp [after, next, hs]
    obtain ⟨h₁, h₂, h₃⟩ := ih after (read.push ((first c cs).1.token l.position)) rfl
      (rest_next_of_cons hs)
    have hsize : bytes (c :: cs) = bytes (first c cs).1.text + bytes (first c cs).2 := by
      rw [← bytes_append, first_append]
    rw [drain_of_some hnext, cut_cons, placed, hsize, ← Nat.add_assoc, ← hplace]
    refine ⟨?_, h₂, ?_⟩
    · simp [h₁]
    · simp [h₃, hmore]

theorem Lexer.toList_drain (line : String) : (ofString line).drain.1.toList =
    (placed 0 (cut line.toList)).map (fun x => x.1.token x.2) ++ [.ending line.utf8ByteSize] := by
  obtain ⟨hread, -, -⟩ := (ofString line).drain_eq #[] rfl
  rw [hread, ofString, bytes_toList, Nat.zero_add, List.nil_append]

theorem Lexer.diagnostics_drain (line : String) :
    (ofString line).drain.2.diagnostics = (notes 0 line.toList).toArray := by
  obtain ⟨-, -, hnotes⟩ := (ofString line).drain_eq #[] rfl
  exact Array.toList_inj.mp (hnotes.trans (List.nil_append _))

theorem Lexeme.mem_of_mem_placed {x : Lexeme × Nat} {position : Nat} {xs : List Lexeme}
    (hx : x ∈ placed position xs) : x.1 ∈ xs := by
  induction xs generalizing position with
  | nil => simp [placed] at hx
  | cons y ys ih =>
    rcases List.mem_cons.mp hx with rfl | hx
    · exact List.mem_cons_self
    · exact List.mem_cons_of_mem y (ih hx)

/-- **What is parsed are the words of a line**, with the notes on its pieces. -/
theorem Parser.ofString_eq (line : String) : Parser.ofString line =
    { rest := words 0 line.toList
      stop := line.utf8ByteSize
      diagnostics := (notes 0 line.toList).toArray } := by
  obtain ⟨h₁, h₂, h₃⟩ := (Lexer.ofString line).drain_eq #[] rfl
  simp only [Parser.ofString, Parser.mk.injEq, true_and]
  refine ⟨?_, ?_, ?_⟩
  · rw [h₁, words, List.filter_append, List.nil_append, List.filter_map]
    refine (List.append_nil _).trans (congrArg (List.map _) (List.filter_congr fun x hx => ?_))
    have hk := kind_ne_ending (mem_of_mem_placed hx)
    simp [Lexeme.token, hk]
  · simpa [Lexer.ofString, bytes_toList] using h₂
  · exact Array.toList_inj.mp (by simpa [notes, Lexer.ofString] using h₃)

namespace Lexeme

variable {s t : List Char} {c d : Char} {x : Lexeme} {position k : Nat}

/-! ## Texts that are put together -/

/-- Whether a piece would go on with `d` behind it. -/
def takes (x : Lexeme) (d : Char) : Bool :=
  match x.kind with
  | .number => d.isDigit
  | .blank => Text.isBlank d
  | .trueWord | .falseWord | .sqrWord | .sqrtWord | .identifier => Text.isLetter d
  | .stray => Opening.ofChar d matches .half _ && x.text = [d]
  | _ => false

/-- The last piece of `s` takes nothing from `t`. -/
def Apart (s t : List Char) : Prop :=
  ∀ x ∈ (cut s).getLast?, ∀ d ∈ t.head?, x.takes d = false

theorem takes_word (word : String) (text : List Char) (d : Char) :
    takes ⟨.ofWord word, text⟩ d = Text.isLetter d := by
  unfold takes TokenKind.ofWord
  grind

/-- A run that ends before `t`, or with `t`, is the same run without `t`. -/
theorem run_append {p : Char → Bool} (h : s.dropWhile p = [] → ∀ d ∈ t.head?, p d = false) :
    (s ++ t).takeWhile p = s.takeWhile p ∧ (s ++ t).dropWhile p = s.dropWhile p ++ t := by
  induction s with
  | nil =>
    cases t with
    | nil => simp
    | cons d t => simp [h rfl d rfl]
  | cons c s ih =>
    by_cases hc : p c = true
    · have := ih (by simpa [hc] using h)
      simp [hc, this]
    · simp [hc]

theorem first_append_of_apart
    (h : (first c s).2 = [] → ∀ d ∈ t.head?, (first c s).1.takes d = false) :
    first c (s ++ t) = ((first c s).1, (first c s).2 ++ t) := by
  unfold first at h ⊢
  cases hc : Opening.ofChar c with
  | digit =>
    have hstop : s.dropWhile Char.isDigit = [] → ∀ d ∈ t.head?, d.isDigit = false := by
      simpa [hc, takes] using h
    simp [run_append hstop]
  | blank =>
    have hstop : s.dropWhile Text.isBlank = [] → ∀ d ∈ t.head?, Text.isBlank d = false := by
      simpa [hc, takes] using h
    simp [run_append hstop]
  | letter =>
    have hstop : s.dropWhile Text.isLetter = [] → ∀ d ∈ t.head?, Text.isLetter d = false := by
      simpa [hc, takes_word] using h
    simp [run_append hstop]
  | mark kind => rfl
  | half kind =>
    simp only [hc] at h
    cases s with
    | nil =>
      have hd : t.head? ≠ some c := by
        intro hd
        have := h rfl c hd
        simp [takes, hc] at this
      simp [hd]
    | cons c' s =>
      by_cases hc' : c' = c <;> simp [hc']
  | stray => rfl

/-- **Texts are cut apart where the last piece takes nothing more.** -/
theorem cut_append (h : Apart s t) : cut (s ++ t) = cut s ++ cut t := by
  induction s using cut.induct with
  | case1 => simp
  | case2 c cs ih =>
    -- the first piece can only meet the other text if it is the last one
    have hfirst : first c (cs ++ t) = ((first c cs).1, (first c cs).2 ++ t) := by
      refine first_append_of_apart fun hnil d hd => h _ ?_ d hd
      rw [cut_cons, hnil, cut_nil]
      rfl
    have hrest : Apart (first c cs).2 t := by
      intro x hx
      refine h x ?_
      rw [cut_cons, List.getLast?_cons, Option.mem_def.mp hx]
      rfl
    rw [List.cons_append, cut_cons, hfirst, ih hrest, cut_cons, List.cons_append]

theorem bytes_flatMap_cut (s : List Char) : bytes ((cut s).flatMap Lexeme.text) = bytes s := by
  induction s using cut.induct with
  | case1 => simp
  | case2 c cs ih =>
    rw [cut_cons, List.flatMap_cons, bytes_append, ih, ← bytes_append, first_append]

theorem placed_append (position : Nat) (xs ys : List Lexeme) : placed position (xs ++ ys) =
    placed position xs ++ placed (position + bytes (xs.flatMap Lexeme.text)) ys := by
  induction xs generalizing position with
  | nil => simp [placed, bytes]
  | cons x xs ih => simp [placed, ih, bytes_append, Nat.add_assoc]

theorem words_append (h : Apart s t) (position : Nat) :
    words position (s ++ t) = words position s ++ words (position + bytes s) t := by
  simp [words, cut_append h, placed_append, bytes_flatMap_cut]

theorem notes_append (h : Apart s t) (position : Nat) :
    notes position (s ++ t) = notes position s ++ notes (position + bytes s) t := by
  simp [notes, cut_append h, placed_append, bytes_flatMap_cut]

/-! ## Seams -/

theorem apart_of_takes (h : ∀ x ∈ cut s, x.takes d = false) : Apart s (d :: t) := by
  intro x hx d' hd
  obtain rfl : d = d' := Option.some.inj hd
  exact h x (List.mem_of_getLast? hx)

theorem takes_mark {kind : TokenKind} (hd : Opening.ofChar d = .mark kind) (x : Lexeme) :
    x.takes d = false := by
  have hrun : d.isDigit = false ∧ Text.isBlank d = false ∧ Text.isLetter d = false := by
    unfold Opening.ofChar at hd
    grind
  obtain ⟨hdigit, hblank, hletter⟩ := hrun
  unfold takes
  split <;> simp [hdigit, hblank, hletter, hd]

theorem apart_mark {kind : TokenKind} (hd : Opening.ofChar d = .mark kind) (s : List Char) :
    Apart s (d :: t) :=
  apart_of_takes fun x _ => takes_mark hd x

/-! ## Classes of characters -/

theorem bounds_of_isDigit (hc : c.isDigit = true) : 48 ≤ c.toNat ∧ c.toNat ≤ 57 := by
  simpa [Char.isDigit, UInt32.le_iff_toNat_le] using hc

theorem isBlank_of_isDigit (hc : c.isDigit = true) : Text.isBlank c = false := by
  have hbounds := bounds_of_isDigit hc
  simp only [Text.isBlank, Text.blanks, CodeSet.covers]
  grind

/-! ## Single pieces -/

theorem run_takeWhile (p : Char → Bool) (s : List Char) :
    (s.takeWhile p).takeWhile p = s.takeWhile p ∧ (s.takeWhile p).dropWhile p = [] := by
  induction s with
  | nil => simp
  | cons c s ih => by_cases hc : p c = true <;> simp [hc, ih]

theorem cut_text_first (c : Char) (cs : List Char) :
    cut (first c cs).1.text = [(first c cs).1] := by
  suffices h : ∃ more, (first c cs).1.text = c :: more ∧ first c more = ((first c cs).1, []) by
    obtain ⟨more, htext, hfirst⟩ := h
    rw [htext, cut_cons, hfirst, cut_nil]
  unfold first
  cases hc : Opening.ofChar c with
  | digit => exact ⟨_, rfl, by simp [run_takeWhile]⟩
  | blank => exact ⟨_, rfl, by simp [run_takeWhile]⟩
  | letter => exact ⟨_, rfl, by simp [run_takeWhile]⟩
  | mark kind => exact ⟨[], rfl, rfl⟩
  | half kind =>
    by_cases hd : cs.head? = some c
    · exact ⟨[c], by simp [hd], by simp [hd]⟩
    · exact ⟨[], by simp [hd], by simp [hd]⟩
  | stray => exact ⟨[], rfl, rfl⟩

theorem cut_text (hx : x ∈ cut s) : cut x.text = [x] := by
  induction s using cut.induct with
  | case1 => simp at hx
  | case2 c cs ih =>
    rw [cut_cons] at hx
    rcases List.mem_cons.mp hx with rfl | hx
    · exact cut_text_first c cs
    · exact ih hx

end Lexeme

/-! ## Texts in other places -/

/-- The token in the place to which `g` takes its own. -/
def Token.relocate (g : Nat → Nat) (t : Token) : Token :=
  { t with position := g t.position }

/-- The diagnostic with its span where `g` takes the start of its own. -/
def Diagnostic.relocate (g : Nat → Nat) (d : Diagnostic) : Diagnostic :=
  { d with span := ⟨g d.span.start, d.span.length⟩ }

/-- The token `k` bytes further on. -/
def Token.moved (k : Nat) (t : Token) : Token :=
  { t with position := t.position + k }

/-- The diagnostic `k` bytes further on. -/
def Diagnostic.moved (k : Nat) (d : Diagnostic) : Diagnostic :=
  { d with span := ⟨d.span.start + k, d.span.length⟩ }

namespace Lexeme

variable {x : Lexeme}

theorem diagnostic?_relocate (x : Lexeme) (g : Nat → Nat) (position : Nat) :
    x.diagnostic? (g position) = (x.diagnostic? position).map (Diagnostic.relocate g) := by
  unfold diagnostic?
  split
  · dsimp only
    split <;> rfl
  · rfl
  · rfl

theorem diagnostic?_add (x : Lexeme) (position k : Nat) :
    x.diagnostic? (position + k) = (x.diagnostic? position).map (Diagnostic.moved k) :=
  x.diagnostic?_relocate (· + k) position

theorem diagnostic?_eq_none {n : Nat} (h : x.diagnostic? n = none) (k : Nat) :
    x.diagnostic? k = none := by
  have hzero : x.diagnostic? 0 = none := by
    rw [← Nat.zero_add n, diagnostic?_add] at h
    exact Option.map_eq_none_iff.mp h
  rw [← Nat.zero_add k, diagnostic?_add, hzero]
  rfl

theorem placed_add (position k : Nat) (xs : List Lexeme) :
    placed (position + k) xs = (placed position xs).map fun x => (x.1, x.2 + k) := by
  induction xs generalizing position with
  | nil => rfl
  | cons x xs ih => simp [placed, ← ih, Nat.add_right_comm]

theorem words_add (position k : Nat) (s : List Char) :
    words (position + k) s = (words position s).map (Token.moved k) := by
  simp [words, placed_add, List.filter_map, Function.comp_def, Lexeme.token, Token.moved]

theorem notes_add (position k : Nat) (s : List Char) :
    notes (position + k) s = (notes position s).map (Diagnostic.moved k) := by
  have hnote (d : Option Diagnostic) :
      (d.map (Diagnostic.moved k)).toList = d.toList.map (Diagnostic.moved k) := by
    cases d <;> rfl
  simp [notes, placed_add, List.flatMap_map, List.map_flatMap, diagnostic?_add, hnote]

end Lexeme

end Reckoner
