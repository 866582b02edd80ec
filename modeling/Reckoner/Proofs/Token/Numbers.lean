import Mathlib.Data.Int.ModEq
import Reckoner.Proofs.Texts
import Reckoner.Proofs.Token.Blanks

/-!
# Numbers

A run of digits denotes a natural number of any size, of which its token keeps 32 bits. That bits
were lost is seen from the text alone: what is kept is written in decimal and compared with the run.
No other number of 32 bits is written with the same digits, so every loss is noticed, and every zero
that leads for nothing.

* `Decimal.value`: what a run of digits denotes; `Decimal.natural_value`: a run that is not padded
  is how this is written.
* `Lexeme.number_eq`: what is kept of it; **`Lexeme.integer_number_eq_iff`**: when this is written
  as the run is.
* **`digits_read_as_number`**: the token of a run, and what is noted about it.
-/

namespace Reckoner

/-! ## Digits -/

namespace Decimal

/-- The natural number that a run of digits denotes. -/
def value (digits : List Char) : Nat :=
  Nat.ofDigitChars 10 digits 0

/-- A zero leads the run and more digits follow it. -/
def IsPadded (digits : List Char) : Prop :=
  digits.head? = some '0' ∧ 1 < digits.length

instance (digits : List Char) : Decidable (IsPadded digits) :=
  inferInstanceAs (Decidable (digits.head? = some '0' ∧ 1 < digits.length))

variable {digits : List Char} {c : Char} {n : Nat}

theorem toDigits_digit (hc : c.isDigit = true) :
    c.toNat - '0'.toNat < 10 ∧ Nat.toDigits 10 (c.toNat - '0'.toNat) = [c] := by
  obtain ⟨hlow, hhigh⟩ := Lexeme.bounds_of_isDigit hc
  have hzero : '0'.toNat = 48 := rfl
  have hlt : c.toNat - '0'.toNat < 10 := by omega
  have hself : (c.toNat - '0'.toNat).digitChar = c := by
    rw [← Char.toNat_inj, Nat.toNat_digitChar_of_lt_ten hlt]
    omega
  rw [Nat.toDigits_of_lt_base hlt, hself]
  exact ⟨hlt, rfl⟩

theorem toDigits_ofDigitChars (hd : ∀ c ∈ digits, c.isDigit = true) (hn : 0 < n) :
    Nat.toDigits 10 (Nat.ofDigitChars 10 digits n) = Nat.toDigits 10 n ++ digits := by
  induction digits generalizing n with
  | nil => simp
  | cons c cs ih =>
    obtain ⟨hc, hcs⟩ := List.forall_mem_cons.mp hd
    obtain ⟨hlt, hself⟩ := toDigits_digit hc
    rw [Nat.ofDigitChars_cons, ih hcs (by omega), ← Nat.toDigits_append_toDigits (by decide) hn hlt,
      hself, List.append_assoc, List.singleton_append]

/-- **A run of digits that is not padded is how its number is written.** -/
theorem natural_value (hne : digits ≠ []) (hd : ∀ c ∈ digits, c.isDigit = true)
    (hp : ¬ IsPadded digits) : natural (value digits) = String.ofList digits := by
  obtain ⟨c, cs, rfl⟩ := List.exists_cons_of_ne_nil hne
  obtain ⟨hc, hcs⟩ := List.forall_mem_cons.mp hd
  obtain ⟨hlt, hself⟩ := toDigits_digit hc
  have hvalue : value (c :: cs) = Nat.ofDigitChars 10 cs (c.toNat - '0'.toNat) := by
    rw [value, Nat.ofDigitChars_cons, Nat.mul_zero, Nat.zero_add]
  rw [natural, hvalue]
  by_cases hzero : c = '0'
  · have hnil : cs = [] := by
      refine List.length_eq_zero_iff.mp (Nat.eq_zero_of_not_pos fun hpos => hp ⟨?_, ?_⟩)
      · rw [hzero, List.head?_cons]
      · rw [List.length_cons]
        omega
    rw [hnil, Nat.ofDigitChars_nil, hself]
  · have hpos : 0 < c.toNat - '0'.toNat := by
      refine Nat.pos_of_ne_zero fun h => hzero ?_
      rw [h, Nat.toDigits_zero] at hself
      exact (List.cons.inj hself).1.symm
    rw [toDigits_ofDigitChars hcs hpos, hself, List.singleton_append]

theorem eq_zero_of_head?_toDigits (h : (Nat.toDigits 10 n).head? = some '0') : n = 0 := by
  induction n using Nat.strongRecOn with
  | ind n ih =>
    by_cases hn : n < 10
    · rw [Nat.toDigits_of_lt_base hn] at h
      exact Nat.digitChar_eq_zero.mp (Option.some.inj h)
    · have hle := Nat.le_of_not_lt hn
      rw [Nat.toDigits_of_base_le (by decide) hle,
        List.head?_append_of_ne_nil _ Nat.toDigits_ne_nil] at h
      have := ih (n / 10) (by omega) h
      omega

theorem not_isPadded_toDigits (n : Nat) : ¬ IsPadded (Nat.toDigits 10 n) := by
  rintro ⟨hhead, hlength⟩
  rw [eq_zero_of_head?_toDigits hhead, Nat.toDigits_zero] at hlength
  exact absurd hlength (by decide)

theorem value_toDigits (n : Nat) : value (Nat.toDigits 10 n) = n :=
  Nat.ofDigitChars_ten_toDigits

end Decimal

/-! ## What is kept -/

namespace Lexeme

variable {digits more before : List Char} {x : Lexeme} {c d : Char} {position : Nat}

/-- **Of the number that a run of digits denotes, 32 bits are kept.** -/
theorem number_eq (digits : List Char) : number digits = .ofInt (Decimal.value digits) := by
  suffices h : ∀ n : Nat, digits.foldl (fun n c => n * 10 + Int32.ofNat (c.toNat - '0'.toNat))
      (.ofInt n) = .ofInt (Nat.ofDigitChars 10 digits n) from h 0
  induction digits with
  | nil => exact fun n => rfl
  | cons c cs ih =>
    intro n
    have hstep : Int32.ofInt n * 10 + .ofNat (c.toNat - '0'.toNat) =
        .ofInt ((10 * n + (c.toNat - '0'.toNat) : Nat) : Int) := by
      rw [Int.natCast_add, Int.natCast_mul, Int32.ofInt_add, Int32.ofInt_mul, Int32.ofInt_eq_ofNat,
        Int32.ofInt_eq_ofNat, Int32.ofInt_eq_ofNat, Int32.mul_comm]
      rfl
    rw [List.foldl_cons, Nat.ofDigitChars_cons, hstep, ih]

theorem toInt_number (h : Decimal.value digits ≤ 2147483647) :
    (number digits).toInt = Decimal.value digits := by
  rw [number_eq]
  exact Int32.toInt_ofInt_of_le (by omega) (by omega)

/-- **What is kept of a run of digits is written as the run is** if nothing was lost and no zero
leads for nothing, and only then. What is written with digits alone is not negative, and no two
numbers are written with the same digits. -/
theorem integer_number_eq_iff (hne : digits ≠ []) (hd : ∀ c ∈ digits, c.isDigit = true) :
    Decimal.integer (number digits).toInt = String.ofList digits ↔
      Decimal.value digits ≤ 2147483647 ∧ ¬ Decimal.IsPadded digits := by
  constructor
  · intro h
    cases hn : (number digits).toInt with
    | ofNat n =>
      rw [hn] at h
      have hdigits : Nat.toDigits 10 n = digits := String.ofList_injective h
      have hsmall := (number digits).toInt_lt
      rw [← hdigits, Decimal.value_toDigits]
      refine ⟨?_, Decimal.not_isPadded_toDigits n⟩
      rw [hn] at hsmall
      exact Int.ofNat_le.mp (Int.le_of_lt_add_one hsmall)
    | negSucc n =>
      have hsign : '-' ∈ digits := by
        rw [hn, Decimal.integer] at h
        have hchars := congrArg String.toList h
        rw [String.toList_ofList, String.toList_append] at hchars
        exact hchars ▸ List.mem_append_left _ (by decide)
      exact absurd (hd '-' hsign) (by decide)
  · rintro ⟨hsmall, hp⟩
    rw [toInt_number hsmall]
    exact Decimal.natural_value hne hd hp

theorem diagnostic?_number (hne : digits ≠ []) (hd : ∀ c ∈ digits, c.isDigit = true)
    (position : Nat) : (diagnostic? ⟨.number, digits⟩ position).toList =
      if 2147483647 < Decimal.value digits ∨ Decimal.IsPadded digits
      then [⟨(token ⟨.number, digits⟩ position).span, .invalidNumber (String.ofList digits)⟩]
      else [] := by
  have hiff := integer_number_eq_iff hne hd
  by_cases h : 2147483647 < Decimal.value digits ∨ Decimal.IsPadded digits
  · have hlost : Decimal.integer (number digits).toInt ≠ String.ofList digits := by
      intro hsame
      obtain ⟨hsmall, hp⟩ := hiff.mp hsame
      exact h.elim (fun hlarge => absurd hlarge (Nat.not_lt.mpr hsmall)) hp
    simp [diagnostic?, hlost, h, token, Token.span]
  · obtain ⟨hsmall, hp⟩ := not_or.mp h
    simp [diagnostic?, hiff.mpr ⟨Nat.le_of_not_lt hsmall, hp⟩, h]

/-! ## Where a run stands -/

theorem takes_of_isDigit (hd : d.isDigit = true) (hx : x.kind ≠ .number) : x.takes d = false := by
  have hblank := isBlank_of_isDigit hd
  have hletter := Text.isLetter_of_isDigit hd
  have hopening := ofChar_of_isDigit hd
  unfold takes
  split <;> simp_all

theorem apart_digits (hne : digits ≠ []) (hd : ∀ c ∈ digits, c.isDigit = true)
    (hbefore : ∀ c ∈ before.getLast?, c.isDigit = false) (more : List Char) :
    Apart before (digits ++ more) := by
  intro x hx d hhead
  have hdigit : d.isDigit = true := by
    rw [List.head?_append_of_ne_nil _ hne] at hhead
    exact hd d (List.mem_of_head? hhead)
  refine takes_of_isDigit hdigit fun hk => ?_
  obtain ⟨xs, hxs⟩ := List.getLast?_eq_some_iff.mp hx
  have hclass : x.InClass := inClass_of_mem_cut (List.mem_of_getLast? hx)
  have htext : before = xs.flatMap text ++ x.text := by
    rw [← flatMap_text_cut before, hxs, List.flatMap_append, List.flatMap_singleton]
  obtain ⟨c, hc⟩ := Option.ne_none_iff_exists'.mp fun h =>
    hclass.text_ne_nil (List.getLast?_eq_none_iff.mp h)
  have hlast : before.getLast? = some c := by
    rw [htext, List.getLast?_append, hc, Option.some_or]
  have hcdigit := (hclass.class_mem (List.mem_of_getLast? hc)).1.mpr hk
  exact absurd (hcdigit.symm.trans (hbefore c hlast)) (by decide)

theorem first_digits (hc : c.isDigit = true) (hd : ∀ c ∈ digits, c.isDigit = true)
    (hmore : ∀ c ∈ more.head?, c.isDigit = false) :
    first c (digits ++ more) = (⟨.number, c :: digits⟩, more) := by
  have hstop : more.takeWhile Char.isDigit = [] ∧ more.dropWhile Char.isDigit = more := by
    cases more with
    | nil => simp
    | cons d more => simp [hmore d rfl]
  simp [first, ofChar_of_isDigit hc, List.takeWhile_append_of_pos hd,
    List.dropWhile_append_of_pos hd, hstop]

theorem cut_digits (hne : digits ≠ []) (hd : ∀ c ∈ digits, c.isDigit = true)
    (hmore : ∀ c ∈ more.head?, c.isDigit = false) :
    cut (digits ++ more) = ⟨.number, digits⟩ :: cut more := by
  obtain ⟨c, cs, rfl⟩ := List.exists_cons_of_ne_nil hne
  obtain ⟨hc, hcs⟩ := List.forall_mem_cons.mp hd
  rw [List.cons_append, cut_cons, first_digits hc hcs hmore]

theorem placed_digits (hne : digits ≠ []) (hd : ∀ c ∈ digits, c.isDigit = true)
    (hbefore : ∀ c ∈ before.getLast?, c.isDigit = false)
    (hmore : ∀ c ∈ more.head?, c.isDigit = false) :
    placed 0 (cut (before ++ (digits ++ more))) = placed 0 (cut before) ++
      (⟨.number, digits⟩, bytes before) :: placed (bytes before + bytes digits) (cut more) := by
  rw [cut_append (apart_digits hne hd hbefore more), cut_digits hne hd hmore, placed_append,
    bytes_flatMap_cut, Nat.zero_add, placed]

theorem notes_digits (hne : digits ≠ []) (hd : ∀ c ∈ digits, c.isDigit = true)
    (hbefore : ∀ c ∈ before.getLast?, c.isDigit = false)
    (hmore : ∀ c ∈ more.head?, c.isDigit = false) : notes 0 (before ++ (digits ++ more)) =
      notes 0 before ++ ((diagnostic? ⟨.number, digits⟩ (bytes before)).toList ++
        notes (bytes before + bytes digits) more) := by
  rw [notes, placed_digits hne hd hbefore hmore, List.flatMap_append, List.flatMap_cons]
  rfl

end Lexeme

open Lexeme

/-- The token `t` is that of a run of digits at `position`. Its value is an integer of 32 bits that
is congruent to what the run denotes. -/
structure Token.IsNumber (digits : List Char) (position : Nat) (t : Token) : Prop where
  kind : t.kind = .number
  position : t.position = position
  literal : t.literal = String.ofList digits
  value : ∃ v : Int32, t.value = some (.integer v) ∧ -2147483648 ≤ v.toInt ∧
    v.toInt < 2147483648 ∧ v.toInt ≡ Decimal.value digits [ZMOD 4294967296]

theorem Lexeme.isNumber_token (digits : List Char) (position : Nat) :
    (token ⟨.number, digits⟩ position).IsNumber digits position where
  kind := rfl
  position := rfl
  literal := rfl
  value := by
    refine ⟨number digits, rfl, Int32.le_toInt _, Int32.toInt_lt _, ?_⟩
    rw [number_eq, Int32.toInt_ofInt]
    exact Int.bmod_emod

/-- **A run of digits is read as a number.** Whatever a lexer has read before, and wherever on a
line neither neighbour is a digit, the run is one token. Its value is the integer of 32 bits that is
congruent to the number that the run denotes, and there is one note about the run, which covers it,
if that number exceeds 2147483647 or a zero leads and more digits follow; else there is none. -/
theorem digits_read_as_number (digits : List Char) (hne : digits ≠ [])
    (hd : ∀ c ∈ digits, c.isDigit = true) :
    (∀ (l : Lexer) (more : List Char), l.rest = digits ++ more →
      (∀ c ∈ more.head?, c.isDigit = false) →
      l.next.1.IsNumber digits l.position ∧ l.next.2.rest = more ∧
      l.next.2.diagnostics.toList = l.diagnostics.toList ++
        if 2147483647 < Decimal.value digits ∨ Decimal.IsPadded digits
        then [⟨l.next.1.span, .invalidNumber (String.ofList digits)⟩] else []) ∧
    ∀ before more : List Char, (∀ c ∈ before.getLast?, c.isDigit = false) →
      (∀ c ∈ more.head?, c.isDigit = false) →
      ∃ t ∈ (Lexer.ofString (String.ofList (before ++ (digits ++ more)))).drain.1,
        t.IsNumber digits (String.ofList before).utf8ByteSize ∧
        (Lexer.ofString (String.ofList (before ++ (digits ++ more)))).drain.2.diagnostics.toList.filter
            (fun d => d.span = t.span) =
          if 2147483647 < Decimal.value digits ∨ Decimal.IsPadded digits
          then [⟨t.span, .invalidNumber (String.ofList digits)⟩] else [] := by
  constructor
  · intro l more hl hmore
    obtain ⟨c, cs, rfl⟩ := List.exists_cons_of_ne_nil hne
    obtain ⟨hc, hcs⟩ := List.forall_mem_cons.mp hd
    have hfirst := first_digits hc hcs hmore
    have hnote := diagnostic?_number hne hd l.position
    have hnext : l.next.1 = token ⟨.number, c :: cs⟩ l.position := by
      simp [Lexer.next, hl, hfirst]
    refine ⟨hnext ▸ isNumber_token _ _, by simp [Lexer.next, hl, hfirst], ?_⟩
    rw [hnext, ← hnote]
    simp [Lexer.next, hl, hfirst]
  · intro before more hbefore hmore
    refine ⟨token ⟨.number, digits⟩ (bytes before), ?mem, isNumber_token _ _, ?notes⟩
    case mem =>
      rw [← Array.mem_toList_iff, Lexer.toList_drain, String.toList_ofList,
        placed_digits hne hd hbefore hmore]
      simp
    case notes =>
      -- what stands in front of the run or behind it is noted where it stands
      have hfront : (notes 0 before).filter
          (fun d => d.span = (token ⟨.number, digits⟩ (bytes before)).span) = [] := by
        refine List.filter_eq_nil_iff.mpr fun d hnote hspan => ?_
        have hbound := (bounds_of_mem_notes hnote).2
        rw [of_decide_eq_true hspan, Nat.zero_add] at hbound
        exact Nat.lt_irrefl _ hbound
      have hback : (notes (bytes before + bytes digits) more).filter
          (fun d => d.span = (token ⟨.number, digits⟩ (bytes before)).span) = [] := by
        refine List.filter_eq_nil_iff.mpr fun d hnote hspan => ?_
        have hbound := (bounds_of_mem_notes hnote).1
        rw [of_decide_eq_true hspan] at hbound
        exact absurd hbound (Nat.not_le.mpr (Nat.lt_add_of_pos_right (bytes_pos hne)))
      rw [Lexer.diagnostics_drain, String.toList_ofList, notes_digits hne hd hbefore hmore,
        List.filter_append, List.filter_append, hfront, hback, diagnostic?_number hne hd,
        List.nil_append, List.append_nil]
      split
      · exact List.filter_cons_of_pos (decide_eq_true rfl)
      · rfl

/-- The number `2 ^ 32 + 7` is kept as seven, which is noted although seven fits. -/
theorem digits_read_as_number_seven :
    ∃ t ∈ (Lexer.ofString "(4294967303)").drain.1, t.IsNumber "4294967303".toList 1 ∧
      (Lexer.ofString "(4294967303)").drain.2.diagnostics.toList.filter (fun d => d.span = t.span) =
        [⟨t.span, .invalidNumber "4294967303"⟩] := by
  have hdigits : ∀ c ∈ "4294967303".toList, c.isDigit = true := List.all_eq_true.mp (by decide)
  obtain ⟨-, hline⟩ := digits_read_as_number "4294967303".toList (by decide) hdigits
  refine hline ['('] [')'] ?_ ?_
  · rintro c ⟨⟩
    rfl
  · rintro c ⟨⟩
    rfl

end Reckoner
