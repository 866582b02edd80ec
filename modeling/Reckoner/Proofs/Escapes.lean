import Reckoner.Text.Escaped

/-!
# Reading escaped texts

An escaped text can be read back whatever characters were found fit to be shown, and whether or not
this depended on where they stand: a backslash says that what follows it is no plain character, and
a code point ends with a brace.

* `Form`, `IsEscaped`: the ways to write a character and a text; `isEscaped_escape`: the one that is
  used.
* `unescape`: the text that was written; **`IsEscaped.unescape_eq`**.
* `IsEscaped.not_mem`: an escaped text is one line.
-/

namespace Reckoner.Text

/-! ## The ways to write a text -/

/-- The ways to write a character. One with a letter of its own is written with that letter; any
other one as it is, or by its code point. -/
inductive Form (c : Char) : List Char → Prop
  | mnemonic {m : Char} (h : mnemonic? c = some m) : Form c ['\\', m]
  | plain (h : mnemonic? c = none) : Form c [c]
  | codePoint (h : mnemonic? c = none) : Form c (codePoint c)

/-- `IsEscaped s w`: the text `w` is one of the ways to write `s`. -/
inductive IsEscaped : List Char → List Char → Prop
  | nil : IsEscaped [] []
  | cons {c : Char} {s w v : List Char} (hc : Form c w) (hs : IsEscaped s v) :
      IsEscaped (c :: s) (w ++ v)

variable {c m : Char} {s w : List Char}

theorem form_escapeChar (leading : Bool) (c : Char) : Form c (escapeChar leading c) := by
  unfold escapeChar
  split
  · next m hm => exact .mnemonic hm
  · next hm =>
    split
    · exact .codePoint hm
    · exact .plain hm

/-- The written form of one character if none is found fit to be shown. -/
def hiddenChar (c : Char) : List Char :=
  match mnemonic? c with
  | some m => ['\\', m]
  | none => Text.codePoint c

theorem form_hiddenChar (c : Char) : Form c (hiddenChar c) := by
  unfold hiddenChar
  split
  · next m hm => exact .mnemonic hm
  · next hm => exact .codePoint hm

theorem isEscaped_flatMap {f : Char → List Char} (hf : ∀ c, Form c (f c)) (s : List Char) :
    IsEscaped s (s.flatMap f) := by
  induction s with
  | nil => exact .nil
  | cons c s ih => exact .cons (hf c) ih

/-- The listing writes every text in one of the ways. -/
theorem isEscaped_escape (s : List Char) : IsEscaped s (escape s) := by
  cases s with
  | nil => exact .nil
  | cons c s => exact .cons (form_escapeChar true c) (isEscaped_flatMap (form_escapeChar false) s)

/-! ## Hexadecimal numbers -/

/-- What a hexadecimal digit counts for. -/
def hexValue (c : Char) : Nat :=
  if c.isDigit then c.toNat - '0'.toNat else c.toNat - 'a'.toNat + 10

/-- The number that hexadecimal digits behind `n` denote. -/
def hexNumber (n : Nat) (digits : List Char) : Nat :=
  digits.foldl (fun n c => 16 * n + hexValue c) n

theorem hexValue_digitChar :
    ∀ d < 16, hexValue d.digitChar = d ∧ d.digitChar.isAlphanum = true := by
  decide

theorem hexNumber_toDigits (n : Nat) : hexNumber 0 (Nat.toDigits 16 n) = n ∧
    ∀ c ∈ Nat.toDigits 16 n, c.isAlphanum = true := by
  induction n using Nat.strongRecOn with
  | ind n ih =>
    by_cases hn : n < 16
    · obtain ⟨hvalue, hclass⟩ := hexValue_digitChar n hn
      rw [Nat.toDigits_of_lt_base hn]
      exact ⟨by simp [hexNumber, hvalue], List.forall_mem_singleton.mpr hclass⟩
    · have hle := Nat.le_of_not_lt hn
      obtain ⟨hfront, hclass⟩ := ih (n / 16) (by omega)
      obtain ⟨hvalue, hlast⟩ := hexValue_digitChar (n % 16) (Nat.mod_lt n (by decide))
      rw [Nat.toDigits_of_base_le (by decide) hle]
      refine ⟨?_, List.forall_mem_append.mpr ⟨hclass, List.forall_mem_singleton.mpr hlast⟩⟩
      rw [hexNumber] at hfront ⊢
      rw [List.foldl_append, hfront, List.foldl_cons, List.foldl_nil, hvalue, Nat.div_add_mod]

theorem not_mem_toDigits (hc : c.isAlphanum = false) (n : Nat) : c ∉ Nat.toDigits 16 n :=
  fun hmem => Bool.false_ne_true (hc.symm.trans ((hexNumber_toDigits n).2 c hmem))

/-! ## Reading a text back -/

/-- The character with the given letter of its own. -/
def named : Char → Char
  | '0' => '\x00'
  | 't' => '\t'
  | 'r' => '\r'
  | 'n' => '\n'
  | c => c

/-- Where the reading of an escaped text stands: between characters, behind a backslash, in front of
the brace of a code point, or behind digits that denote `n`. -/
inductive Reading where
  | text
  | backslash
  | brace
  | digits (n : Nat)

/-- The text that was written, read on from a place. -/
def unescapeFrom : Reading → List Char → List Char
  | _, [] => []
  | .text, c :: cs => if c = '\\' then unescapeFrom .backslash cs else c :: unescapeFrom .text cs
  | .backslash, c :: cs =>
    if c = 'u' then unescapeFrom .brace cs else named c :: unescapeFrom .text cs
  | .brace, _ :: cs => unescapeFrom (.digits 0) cs
  | .digits n, c :: cs =>
    if c = '\x7d' then Char.ofNat n :: unescapeFrom .text cs
    else unescapeFrom (.digits (16 * n + hexValue c)) cs

/-- The text that was written. -/
def unescape (w : List Char) : List Char :=
  unescapeFrom .text w

theorem mnemonic_spec (h : mnemonic? c = some m) : named m = c ∧ m ≠ 'u' ∧ m ≠ '\n' := by
  unfold mnemonic? at h
  split at h
  case h_8 => exact absurd h.symm (Option.some_ne_none m)
  all_goals
    obtain rfl := Option.some.inj h
    decide

theorem ne_of_mnemonic?_eq_none (h : mnemonic? c = none) : c ≠ '\\' ∧ c ≠ '\n' := by
  constructor <;> rintro rfl <;> exact absurd h (Option.some_ne_none _)

theorem unescapeFrom_digits (hs : '\x7d' ∉ s) (n : Nat) (v : List Char) :
    unescapeFrom (.digits n) (s ++ '\x7d' :: v) =
      Char.ofNat (hexNumber n s) :: unescapeFrom .text v := by
  induction s generalizing n with
  | nil => rw [List.nil_append, unescapeFrom, if_pos rfl, hexNumber, List.foldl_nil]
  | cons c s ih =>
    simp only [List.mem_cons, not_or] at hs
    obtain ⟨hc, hs⟩ := hs
    rw [List.cons_append, unescapeFrom, if_neg (Ne.symm hc), ih hs, hexNumber, hexNumber,
      List.foldl_cons]

/-- **A character is read back from any of its forms**, and the reading goes on behind it. -/
theorem Form.unescapeFrom_append (h : Form c w) (v : List Char) :
    unescapeFrom .text (w ++ v) = c :: unescapeFrom .text v := by
  cases h with
  | mnemonic hm =>
    obtain ⟨hnamed, hu, -⟩ := mnemonic_spec hm
    simp [unescapeFrom, hu, hnamed]
  | plain hm => simp [unescapeFrom, (ne_of_mnemonic?_eq_none hm).1]
  | codePoint hm =>
    have hdigits := unescapeFrom_digits (not_mem_toDigits (c := '\x7d') rfl c.toNat) 0 v
    rw [(hexNumber_toDigits c.toNat).1, Char.ofNat_toNat] at hdigits
    simp [Text.codePoint, unescapeFrom, hdigits]

/-- **A text is read back from all the ways in which it may be written.** -/
theorem IsEscaped.unescape_eq (h : IsEscaped s w) : unescape w = s := by
  rw [unescape]
  induction h with
  | nil => rfl
  | cons hc _ ih => rw [hc.unescapeFrom_append, ih]

theorem Form.not_mem (h : Form c w) : '\n' ∉ w := by
  cases h with
  | mnemonic hm =>
    have hne := (mnemonic_spec hm).2.2
    simp [hne.symm]
  | plain hm => simpa using (ne_of_mnemonic?_eq_none hm).2.symm
  | codePoint hm =>
    have hdigits := not_mem_toDigits (c := '\n') rfl c.toNat
    simp [Text.codePoint, hdigits]

/-- **An escaped text is one line.** -/
theorem IsEscaped.not_mem (h : IsEscaped s w) : '\n' ∉ w := by
  induction h with
  | nil => exact List.not_mem_nil
  | cons hc _ ih => exact fun hmem => (List.mem_append.mp hmem).elim hc.not_mem ih

end Reckoner.Text
