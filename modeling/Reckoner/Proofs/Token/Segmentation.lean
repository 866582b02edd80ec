import Mathlib.Data.List.Chain
import Mathlib.Data.List.TakeWhile
import Reckoner.Proofs.Token.Cut

/-!
# Segmentations

What the pieces of a line are, said without a lexer: every piece is of the class of its kind, and no
two neighbours could have been one piece. There is exactly one way to put a line together from such
pieces, and the lexer finds it.

* `Lexeme.InClass`: the class of a kind; `Lexeme.Separate`: neighbours that are not one piece.
* `Lexeme.inClass_of_mem_cut`, `Lexeme.isChain_cut`: what the lexer cuts is such a sequence.
* **`Lexeme.cut_flatMap_text`**: every such sequence is what the lexer cuts, so a text has exactly
  one, `Lexeme.isSegmentation_iff`.
* **`tokens_unique_segmentation`**: the tokens of a line are its only segmentation.
-/

namespace Reckoner

/-! ## Classes of characters -/

namespace Text

theorem blanks_not_letters :
    ∀ r ∈ blanks, ∀ k < r.2 + 1 - r.1, CodeSet.covers letters (r.1 + k) = false := by
  decide +kernel

variable {c : Char}

theorem isLetter_of_isDigit (hc : c.isDigit = true) : isLetter c = false := by
  rw [Bool.eq_false_iff]
  intro hl
  obtain ⟨r, hr, hlow, -⟩ := (CodeSet.covers_iff letters_increasing c.toNat).mp hl
  have := CodeSet.le_of_increasingFrom letters_increasing r hr
  have := Lexeme.bounds_of_isDigit hc
  omega

theorem isLetter_of_isBlank (hc : isBlank c = true) : isLetter c = false := by
  obtain ⟨r, hr, hlow, hhigh⟩ := (CodeSet.covers_iff blanks_increasing c.toNat).mp hc
  have hk := blanks_not_letters r hr (c.toNat - r.1) (by omega)
  rwa [Nat.add_sub_cancel' hlow] at hk

theorem isDigit_of_isBlank (hc : isBlank c = true) : c.isDigit = false := by
  rw [Bool.eq_false_iff]
  intro hd
  simp [Lexeme.isBlank_of_isDigit hd] at hc

theorem isDigit_of_isLetter (hc : isLetter c = true) : c.isDigit = false := by
  rw [Bool.eq_false_iff]
  intro hd
  simp [isLetter_of_isDigit hd] at hc

theorem isBlank_of_isLetter (hc : isLetter c = true) : isBlank c = false := by
  rw [Bool.eq_false_iff]
  intro hb
  simp [isLetter_of_isBlank hb] at hc

end Text

/-- The kinds of runs of letters. -/
def TokenKind.isWord : TokenKind → Bool
  | trueWord | falseWord | sqrWord | sqrtWord | identifier => true
  | _ => false

theorem TokenKind.isWord_ofWord (word : String) : (ofWord word).isWord = true := by
  unfold ofWord
  grind [isWord]

namespace Lexeme

/-- The operators and parentheses. -/
def signs : List Lexeme :=
  [ ⟨.plus, ['+']⟩, ⟨.minus, ['-']⟩, ⟨.times, ['*']⟩, ⟨.slash, ['/']⟩, ⟨.percent, ['%']⟩,
    ⟨.caret, ['^']⟩, ⟨.openParen, ['(']⟩, ⟨.closeParen, [')']⟩, ⟨.bang, ['!']⟩,
    ⟨.and, ['&', '&']⟩, ⟨.or, ['|', '|']⟩ ]

/-- The characters of a piece are of the class of its kind. A stray character is of no class, and no
sign by itself. -/
inductive InClass : Lexeme → Prop
  | number {s : List Char} (hs : s ≠ []) (h : ∀ c ∈ s, c.isDigit = true) : InClass ⟨.number, s⟩
  | blank {s : List Char} (hs : s ≠ []) (h : ∀ c ∈ s, Text.isBlank c = true) :
      InClass ⟨.blank, s⟩
  | word {s : List Char} (hs : s ≠ []) (h : ∀ c ∈ s, Text.isLetter c = true) :
      InClass ⟨.ofWord (String.ofList s), s⟩
  | sign {x : Lexeme} (h : x ∈ signs) : InClass x
  | stray {c : Char} (hdigit : c.isDigit = false) (hblank : Text.isBlank c = false)
      (hletter : Text.isLetter c = false) (hsign : ∀ x ∈ signs, x.text ≠ [c]) :
      InClass ⟨.stray, [c]⟩

/-- Two neighbours could not have been one piece: they are not two numbers, two runs of blanks or
two words, and no stray half of `&&` or `||` stands in front of another half. -/
def Separate (x y : Lexeme) : Prop :=
  ¬ (x.kind = .number ∧ y.kind = .number) ∧ ¬ (x.kind = .blank ∧ y.kind = .blank) ∧
    ¬ (x.kind.isWord = true ∧ y.kind.isWord = true) ∧
    ∀ c, c = '&' ∨ c = '|' → x = ⟨.stray, [c]⟩ → y.text.head? ≠ some c

variable {c d : Char} {s : List Char} {x y : Lexeme} {xs : List Lexeme}

/-! ## How a character opens a piece -/

theorem ofChar_of_isDigit (hc : c.isDigit = true) : Opening.ofChar c = .digit := by
  simp [Opening.ofChar, hc]

theorem ofChar_of_isBlank (hc : Text.isBlank c = true) : Opening.ofChar c = .blank := by
  simp [Opening.ofChar, Text.isDigit_of_isBlank hc, hc]

theorem ofChar_of_isLetter (hc : Text.isLetter c = true) : Opening.ofChar c = .letter := by
  simp [Opening.ofChar, Text.isDigit_of_isLetter hc, Text.isBlank_of_isLetter hc, hc]

theorem isDigit_of_ofChar (h : Opening.ofChar c = .digit) : c.isDigit = true := by
  unfold Opening.ofChar at h
  grind

theorem isBlank_of_ofChar (h : Opening.ofChar c = .blank) : Text.isBlank c = true := by
  unfold Opening.ofChar at h
  grind

theorem isLetter_of_ofChar (h : Opening.ofChar c = .letter) : Text.isLetter c = true := by
  unfold Opening.ofChar at h
  grind

theorem mem_signs_of_mark {kind : TokenKind} (h : Opening.ofChar c = .mark kind) :
    ⟨kind, [c]⟩ ∈ signs := by
  unfold Opening.ofChar at h
  split at h
  · cases h
  split at h
  · cases h
  split at h
  · cases h
  · split at h <;> cases h <;> decide

theorem half_cases {kind : TokenKind} (h : Opening.ofChar c = .half kind) :
    c = '&' ∧ kind = .and ∨ c = '|' ∧ kind = .or := by
  unfold Opening.ofChar at h
  grind

theorem classes_of_stray (h : Opening.ofChar c = .stray) :
    c.isDigit = false ∧ Text.isBlank c = false ∧ Text.isLetter c = false ∧
      ∀ x ∈ signs, x.text ≠ [c] := by
  have hclass : c.isDigit = false ∧ Text.isBlank c = false ∧ Text.isLetter c = false := by
    unfold Opening.ofChar at h
    grind
  refine ⟨hclass.1, hclass.2.1, hclass.2.2, fun x hx htext => ?_⟩
  simp only [signs, List.mem_cons, List.not_mem_nil, or_false] at hx
  rcases hx with rfl | rfl | rfl | rfl | rfl | rfl | rfl | rfl | rfl | rfl | rfl
  all_goals cases htext
  all_goals exact absurd h (by decide)

theorem InClass.class_mem (hx : x.InClass) (hd : d ∈ x.text) :
    (d.isDigit = true ↔ x.kind = .number) ∧ (Text.isBlank d = true ↔ x.kind = .blank) ∧
      (Text.isLetter d = true ↔ x.kind.isWord = true) := by
  cases hx with
  | number _ h =>
    have hdigit := h d hd
    have hblank := isBlank_of_isDigit hdigit
    have hletter := Text.isLetter_of_isDigit hdigit
    simp [hdigit, hblank, hletter, TokenKind.isWord]
  | blank _ h =>
    have hblank := h d hd
    have hdigit := Text.isDigit_of_isBlank hblank
    have hletter := Text.isLetter_of_isBlank hblank
    simp [hdigit, hblank, hletter, TokenKind.isWord]
  | @word s _ h =>
    have hletter := h d hd
    have hdigit := Text.isDigit_of_isLetter hletter
    have hblank := Text.isBlank_of_isLetter hletter
    have hword := TokenKind.isWord_ofWord (String.ofList s)
    generalize TokenKind.ofWord (String.ofList s) = kind at hword ⊢
    cases kind <;> simp_all [TokenKind.isWord]
  | sign h =>
    simp only [signs, List.mem_cons, List.not_mem_nil, or_false] at h
    rcases h with rfl | rfl | rfl | rfl | rfl | rfl | rfl | rfl | rfl | rfl | rfl
    all_goals
      simp only [List.mem_cons, List.not_mem_nil, or_false, or_self] at hd
      subst hd
      decide
  | @stray c hdigit hblank hletter _ =>
    obtain rfl := List.mem_singleton.mp hd
    simp [hdigit, hblank, hletter, TokenKind.isWord]

/-! ## Neighbours -/

/-- A stray character goes on with another one only where both are halves of `&&` or `||`. -/
theorem takes_stray : takes ⟨.stray, [c]⟩ d = true ↔ (c = '&' ∨ c = '|') ∧ d = c := by
  have hand : Opening.ofChar '&' = .half .and := rfl
  have hor : Opening.ofChar '|' = .half .or := rfl
  constructor
  · intro h
    cases hd : Opening.ofChar d with
    | half kind =>
      have hcd : c = d := by simpa [takes, hd] using h
      rcases half_cases hd with ⟨rfl, -⟩ | ⟨rfl, -⟩
      · exact ⟨.inl hcd, hcd.symm⟩
      · exact ⟨.inr hcd, hcd.symm⟩
    | _ => simp [takes, hd] at h
  · rintro ⟨rfl | rfl, rfl⟩
    · simp [takes, hand]
    · simp [takes, hor]

theorem takes_sign (hx : x ∈ signs) (d : Char) : x.takes d = false := by
  simp only [signs, List.mem_cons, List.not_mem_nil, or_false] at hx
  rcases hx with rfl | rfl | rfl | rfl | rfl | rfl | rfl | rfl | rfl | rfl | rfl
  all_goals rfl

theorem takes_of_isBlank (hd : Text.isBlank d = true) (hx : x.kind ≠ .blank) :
    x.takes d = false := by
  have hdigit := Text.isDigit_of_isBlank hd
  have hletter := Text.isLetter_of_isBlank hd
  have hopening := ofChar_of_isBlank hd
  unfold takes
  split <;> simp_all

/-- **Neighbours are separate if the first one does not go on with the second one.** -/
theorem separate_iff (hx : x.InClass) (hy : y.InClass) (hd : y.text.head? = some d) :
    Separate x y ↔ x.takes d = false := by
  obtain ⟨hnumber, hblank, hword⟩ := hy.class_mem (List.mem_of_head? hd)
  rw [Separate, ← hnumber, ← hblank, ← hword, hd, ← Bool.not_eq_true]
  cases hx with
  | number => simp [takes, TokenKind.isWord]
  | blank => simp [takes, TokenKind.isWord]
  | @word s =>
    have hk := TokenKind.isWord_ofWord (String.ofList s)
    rw [takes_word]
    generalize TokenKind.ofWord (String.ofList s) = k at hk ⊢
    cases k <;> simp_all [TokenKind.isWord]
  | sign h =>
    rw [takes_sign h]
    simp only [signs, List.mem_cons, List.not_mem_nil, or_false] at h
    rcases h with rfl | rfl | rfl | rfl | rfl | rfl | rfl | rfl | rfl | rfl | rfl
    all_goals simp [TokenKind.isWord]
  | @stray c =>
    rw [takes_stray]
    simp [TokenKind.isWord]
    grind

/-! ## What the lexer cuts -/

theorem InClass.text_ne_nil (hx : x.InClass) : x.text ≠ [] := by
  cases hx with
  | number hs _ => exact hs
  | blank hs _ => exact hs
  | word hs _ => exact hs
  | sign h =>
    revert x
    decide
  | stray => exact List.cons_ne_nil _ _

theorem inClass_first (c : Char) (cs : List Char) : (first c cs).1.InClass := by
  have hrun {p : Char → Bool} (hc : p c = true) : ∀ d ∈ c :: cs.takeWhile p, p d = true := by
    intro d hd
    rcases List.mem_cons.mp hd with rfl | hd
    · exact hc
    · exact List.mem_takeWhile_imp hd
  unfold first
  cases hc : Opening.ofChar c with
  | digit => exact .number (List.cons_ne_nil _ _) (hrun (isDigit_of_ofChar hc))
  | blank => exact .blank (List.cons_ne_nil _ _) (hrun (isBlank_of_ofChar hc))
  | letter => exact .word (List.cons_ne_nil _ _) (hrun (isLetter_of_ofChar hc))
  | mark kind => exact .sign (mem_signs_of_mark hc)
  | half kind =>
    by_cases hd : cs.head? = some c
    · simp only [hd, if_true]
      rcases half_cases hc with ⟨rfl, rfl⟩ | ⟨rfl, rfl⟩
      · exact .sign (by decide)
      · exact .sign (by decide)
    · simp only [hd, if_false]
      rcases half_cases hc with ⟨rfl, rfl⟩ | ⟨rfl, rfl⟩
      · exact .stray (by decide) (by decide) (by decide) (by decide)
      · exact .stray (by decide) (by decide) (by decide) (by decide)
  | stray =>
    obtain ⟨hdigit, hblank, hletter, hsign⟩ := classes_of_stray hc
    exact .stray hdigit hblank hletter hsign

theorem takes_first (c : Char) (cs : List Char) (hd : (first c cs).2.head? = some d) :
    (first c cs).1.takes d = false := by
  have hrun (p : Char → Bool) (h : (cs.dropWhile p).head? = some d) : p d = false := by
    simpa [h] using List.head?_dropWhile_not p cs
  unfold first at hd ⊢
  cases hc : Opening.ofChar c with
  | digit => exact hrun Char.isDigit (by simpa [hc] using hd)
  | blank => exact hrun Text.isBlank (by simpa [hc] using hd)
  | letter =>
    rw [takes_word]
    exact hrun Text.isLetter (by simpa [hc] using hd)
  | mark kind => exact takes_sign (mem_signs_of_mark hc) d
  | half kind =>
    by_cases hcd : cs.head? = some c
    · simp only [hcd, if_true]
      rcases half_cases hc with ⟨rfl, rfl⟩ | ⟨rfl, rfl⟩
      · rfl
      · rfl
    · simp only [hc, hcd, if_false] at hd ⊢
      rw [← Bool.not_eq_true, takes_stray]
      rintro ⟨-, rfl⟩
      exact hcd hd
  | stray =>
    simp only [hc] at hd ⊢
    rw [← Bool.not_eq_true, takes_stray]
    rintro ⟨rfl | rfl, -⟩
    · exact absurd hc (by decide)
    · exact absurd hc (by decide)

theorem inClass_of_mem_cut (hx : x ∈ cut s) : x.InClass := by
  induction s using cut.induct with
  | case1 => simp at hx
  | case2 c cs ih =>
    rw [cut_cons] at hx
    rcases List.mem_cons.mp hx with rfl | hx
    · exact inClass_first c cs
    · exact ih hx

theorem flatMap_text_cut (s : List Char) : (cut s).flatMap text = s := by
  induction s using cut.induct with
  | case1 => simp
  | case2 c cs ih => rw [cut_cons, List.flatMap_cons, ih, first_append]

theorem head?_flatMap_text (hx : x.InClass) (xs : List Lexeme) :
    ((x :: xs).flatMap text).head? = x.text.head? := by
  obtain ⟨d, more, h⟩ := List.exists_cons_of_ne_nil hx.text_ne_nil
  simp [h]

theorem isChain_cut (s : List Char) : (cut s).IsChain Separate := by
  induction s using cut.induct with
  | case1 => simp
  | case2 c cs ih =>
    rw [cut_cons, List.isChain_cons]
    refine ⟨fun y hy => ?_, ih⟩
    obtain ⟨ys, hys⟩ := List.head?_eq_some_iff.mp hy
    have hyclass : y.InClass := inClass_of_mem_cut (hys ▸ List.mem_cons_self)
    obtain ⟨d, hd⟩ := Option.ne_none_iff_exists'.mp fun h =>
      hyclass.text_ne_nil (List.head?_eq_none_iff.mp h)
    have hnext : (first c cs).2.head? = some d := by
      rw [← flatMap_text_cut (first c cs).2, hys, head?_flatMap_text hyclass, hd]
    exact (separate_iff (inClass_first c cs) hyclass hd).mpr (takes_first c cs hnext)

/-! ## Every segmentation is what the lexer cuts -/

theorem InClass.cut_text (hx : x.InClass) : cut x.text = [x] := by
  have hrun {p : Char → Bool} {s : List Char} (h : ∀ c ∈ s, p c = true) :
      s.takeWhile p = s ∧ s.dropWhile p = [] :=
    ⟨List.takeWhile_eq_self_iff.mpr h, List.dropWhile_eq_nil_iff.mpr h⟩
  cases hx with
  | @number s hs h =>
    obtain ⟨c, cs, rfl⟩ := List.exists_cons_of_ne_nil hs
    obtain ⟨hc, hcs⟩ := List.forall_mem_cons.mp h
    simp [cut_cons, first, ofChar_of_isDigit hc, hrun hcs]
  | @blank s hs h =>
    obtain ⟨c, cs, rfl⟩ := List.exists_cons_of_ne_nil hs
    obtain ⟨hc, hcs⟩ := List.forall_mem_cons.mp h
    simp [cut_cons, first, ofChar_of_isBlank hc, hrun hcs]
  | @word s hs h =>
    obtain ⟨c, cs, rfl⟩ := List.exists_cons_of_ne_nil hs
    obtain ⟨hc, hcs⟩ := List.forall_mem_cons.mp h
    simp [cut_cons, first, ofChar_of_isLetter hc, hrun hcs]
  | sign h =>
    simp only [signs, List.mem_cons, List.not_mem_nil, or_false] at h
    rcases h with rfl | rfl | rfl | rfl | rfl | rfl | rfl | rfl | rfl | rfl | rfl
    all_goals
      simp only [cut_cons]
      exact congrArg (List.cons _) cut_nil
  | @stray c hdigit hblank hletter hsign =>
    have hfirst : first c [] = (⟨.stray, [c]⟩, []) := by
      unfold first
      cases hc : Opening.ofChar c with
      | digit => simp [isDigit_of_ofChar hc] at hdigit
      | blank => simp [isBlank_of_ofChar hc] at hblank
      | letter => simp [isLetter_of_ofChar hc] at hletter
      | mark kind => exact absurd rfl (hsign _ (mem_signs_of_mark hc))
      | half kind => rfl
      | stray => rfl
    rw [cut_cons, hfirst, cut_nil]

/-- **Every sequence of separate pieces is what the lexer cuts** off their text. -/
theorem cut_flatMap_text (hclass : ∀ x ∈ xs, x.InClass) (hchain : xs.IsChain Separate) :
    cut (xs.flatMap text) = xs := by
  induction xs with
  | nil => simp
  | cons x xs ih =>
    obtain ⟨hx, hxs⟩ := List.forall_mem_cons.mp hclass
    obtain ⟨hnext, hchain⟩ := List.isChain_cons.mp hchain
    have hapart : Apart x.text (xs.flatMap text) := by
      intro z hz d hd
      obtain rfl : x = z := by simpa [hx.cut_text] using hz
      cases xs with
      | nil => simp at hd
      | cons y ys =>
        have hy := hxs y List.mem_cons_self
        rw [head?_flatMap_text hy] at hd
        exact (separate_iff hx hy hd).mp (hnext y rfl)
    rw [List.flatMap_cons, cut_append hapart, hx.cut_text, ih hxs hchain, List.singleton_append]

/-- A sequence of pieces that makes up a text: each is of the class of its kind, and no two
neighbours could have been one piece. -/
structure IsSegmentation (s : List Char) (xs : List Lexeme) : Prop where
  inClass : ∀ x ∈ xs, x.InClass
  separate : xs.IsChain Separate
  text_eq : xs.flatMap text = s

/-- **A text has exactly one segmentation**: the pieces that the lexer cuts. -/
theorem isSegmentation_iff : IsSegmentation s xs ↔ xs = cut s := by
  constructor
  · rintro ⟨hclass, hchain, rfl⟩
    exact (cut_flatMap_text hclass hchain).symm
  · rintro rfl
    exact ⟨fun x hx => inClass_of_mem_cut hx, isChain_cut s, flatMap_text_cut s⟩

end Lexeme

/-! ## Tokens -/

/-- The kind and the characters of a token. -/
def Token.lexeme (t : Token) : Lexeme :=
  ⟨t.kind, t.literal.toList⟩

/-- What is wrong with a token by itself: a number whose value is not written with its digits, and a
stray character. -/
def Token.complaints (t : Token) : List Diagnostic :=
  match t.kind with
  | .number =>
    if t.value.map Value.text = some t.literal then []
    else [⟨t.span, .invalidNumber t.literal⟩]
  | .stray => t.literal.toList.map (Diagnostic.strayCharacter t.position)
  | _ => []

namespace Lexeme

variable {x : Lexeme} {xs : List Lexeme} {position : Nat} {d : Diagnostic}

theorem lexeme_token (x : Lexeme) (position : Nat) : (x.token position).lexeme = x := by
  simp [Token.lexeme, token]

theorem complaints_token (hx : x.InClass) (position : Nat) :
    (x.token position).complaints = (x.diagnostic? position).toList := by
  cases hx with
  | @number s hs h =>
    by_cases hwritten : Decimal.integer (number s).toInt = String.ofList s
    · simp [Token.complaints, token, value?, diagnostic?, Value.text, hwritten]
    · simp [Token.complaints, token, value?, diagnostic?, Value.text, hwritten, Token.span]
  | blank => rfl
  | @word s hs h =>
    have hword := TokenKind.isWord_ofWord (String.ofList s)
    generalize TokenKind.ofWord (String.ofList s) = kind at hword ⊢
    cases kind
    case trueWord | falseWord | sqrWord | sqrtWord | identifier => rfl
    all_goals simp [TokenKind.isWord] at hword
  | sign h =>
    simp only [signs, List.mem_cons, List.not_mem_nil, or_false] at h
    rcases h with rfl | rfl | rfl | rfl | rfl | rfl | rfl | rfl | rfl | rfl | rfl
    all_goals rfl
  | stray => simp [Token.complaints, token, diagnostic?]

theorem InClass.diagnostic?_cases (hx : x.InClass) (hd : x.diagnostic? position = some d) :
    d = ⟨(x.token position).span, .invalidNumber (String.ofList x.text)⟩ ∨
      ∃ c, x.text = [c] ∧ d = .strayCharacter position c := by
  cases hx with
  | @number s _ _ =>
    simp only [diagnostic?] at hd
    split at hd
    · exact absurd hd.symm (Option.some_ne_none d)
    · exact .inl (Option.some.inj hd).symm
  | blank => simp [diagnostic?] at hd
  | @word s _ _ =>
    have hword := TokenKind.isWord_ofWord (String.ofList s)
    generalize TokenKind.ofWord (String.ofList s) = kind at hword hd
    cases kind
    case trueWord | falseWord | sqrWord | sqrtWord | identifier => simp [diagnostic?] at hd
    all_goals simp [TokenKind.isWord] at hword
  | sign h =>
    simp only [signs, List.mem_cons, List.not_mem_nil, or_false] at h
    rcases h with rfl | rfl | rfl | rfl | rfl | rfl | rfl | rfl | rfl | rfl | rfl
    all_goals simp [diagnostic?] at hd
  | @stray c _ _ _ _ => exact .inr ⟨c, rfl, (Option.some.inj hd).symm⟩

theorem InClass.span_eq (hx : x.InClass) (hd : x.diagnostic? position = some d) :
    d.span = (x.token position).span := by
  rcases hx.diagnostic?_cases hd with rfl | ⟨c, htext, rfl⟩
  · rfl
  · simp [Diagnostic.strayCharacter, Token.span, token, htext]

theorem map_fst_placed (position : Nat) (xs : List Lexeme) :
    (placed position xs).map Prod.fst = xs := by
  induction xs generalizing position with
  | nil => rfl
  | cons x xs ih => simp [placed, ih]

theorem map_lexeme_placed (position : Nat) (xs : List Lexeme) :
    ((placed position xs).map fun x => x.1.token x.2).map Token.lexeme = xs := by
  simp [Function.comp_def, lexeme_token, map_fst_placed]

theorem flatMap_literal (tokens : List Token) :
    (tokens.flatMap fun t => t.literal.toList) = (tokens.map Token.lexeme).flatMap text := by
  rw [List.flatMap_map]
  rfl

theorem position_placed {position : Nat} {before after : List Token} {t : Token}
    (h : (placed position xs).map (fun x => x.1.token x.2) = before ++ t :: after) :
    t.position = position + bytes (before.flatMap fun t => t.literal.toList) := by
  induction xs generalizing position before with
  | nil => simp [placed] at h
  | cons x xs ih =>
    rw [placed, List.map_cons] at h
    cases before with
    | nil =>
      obtain ⟨rfl, -⟩ := List.cons.inj h
      simp [token, bytes]
    | cons u before =>
      obtain ⟨rfl, hmore⟩ := List.cons.inj h
      simp [ih hmore, bytes_append, token, Nat.add_assoc]

end Lexeme

open Lexeme

/-- **The tokens of a line are its only segmentation.** They end with the end of the line, which
stands behind all its bytes; the others make up the line, each behind the bytes of those before it,
and no other segmentation does. What is wrong with the line is what is wrong with each of them. And
every sequence of separate pieces is read off the text that it makes up. -/
theorem tokens_unique_segmentation :
    (∀ line : String, ∃ tokens : List Token,
      (Lexer.ofString line).drain.1.toList = tokens ++ [.ending line.utf8ByteSize] ∧
      (∀ t ∈ tokens, t.kind ≠ .ending ∧ t.literal ≠ "") ∧
      tokens.flatMap (fun t => t.literal.toList) = line.toList ∧
      (∀ before t after, tokens = before ++ t :: after →
        t.position = bytes (before.flatMap fun t => t.literal.toList)) ∧
      (∀ xs, IsSegmentation line.toList xs ↔ xs = tokens.map Token.lexeme) ∧
      (Lexer.ofString line).drain.2.diagnostics.toList = tokens.flatMap Token.complaints) ∧
    ∀ xs : List Lexeme, (∀ x ∈ xs, x.InClass) → xs.IsChain Separate →
      (Lexer.ofString (String.ofList (xs.flatMap text))).drain.1.toList.map Token.lexeme =
        xs ++ [⟨.ending, []⟩] := by
  constructor
  · intro line
    obtain ⟨hread, -, hnotes⟩ := (Lexer.ofString line).drain_eq #[] rfl
    refine ⟨(placed 0 (cut line.toList)).map fun x => x.1.token x.2, ?_, ?_, ?_, ?_, ?_, ?_⟩
    · simpa [Lexer.ofString, bytes_toList] using hread
    · intro t ht
      obtain ⟨x, hx, rfl⟩ := List.mem_map.mp ht
      have hx := mem_of_mem_placed hx
      refine ⟨kind_ne_ending hx, fun h => (inClass_of_mem_cut hx).text_ne_nil ?_⟩
      simpa [token] using h
    · rw [flatMap_literal, map_lexeme_placed, flatMap_text_cut]
    · intro before t after h
      simpa using position_placed h
    · intro xs
      rw [map_lexeme_placed, isSegmentation_iff]
    · have hcomplaints : ∀ x ∈ placed 0 (cut line.toList),
          (x.1.token x.2).complaints = (x.1.diagnostic? x.2).toList := fun x hx =>
        complaints_token (inClass_of_mem_cut (mem_of_mem_placed hx)) x.2
      rw [hnotes, List.flatMap_map, List.flatMap_congr hcomplaints]
      rfl
  · intro xs hclass hchain
    obtain ⟨hread, -⟩ := (Lexer.ofString (String.ofList (xs.flatMap text))).drain_eq #[] rfl
    have hcut : cut (Lexer.ofString (String.ofList (xs.flatMap text))).rest = xs := by
      rw [Lexer.ofString, String.toList_ofList, cut_flatMap_text hclass hchain]
    rw [hread, hcut, List.map_append, List.map_append, map_lexeme_placed]
    rfl

/-- The segmentation of `12&&&x`: the third `&` is left over. -/
theorem tokens_unique_segmentation_halves :
    (Lexer.ofString "12&&&x").drain.1.toList.map Token.lexeme =
      [⟨.number, ['1', '2']⟩, ⟨.and, ['&', '&']⟩, ⟨.stray, ['&']⟩, ⟨.identifier, ['x']⟩,
        ⟨.ending, []⟩] := by
  refine tokens_unique_segmentation.2
    [⟨.number, ['1', '2']⟩, ⟨.and, ['&', '&']⟩, ⟨.stray, ['&']⟩, ⟨.identifier, ['x']⟩] ?_ ?_
  · simp only [List.forall_mem_cons]
    exact ⟨inClass_first '1' ['2'], .sign (by decide), inClass_first '&' ['x'],
      inClass_first 'x' [], by simp⟩
  · simp [Separate, TokenKind.isWord]

end Reckoner
