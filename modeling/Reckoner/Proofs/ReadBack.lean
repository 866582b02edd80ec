import Reckoner.Proofs.Chains

/-!
# Values that are read back

A value is printed and a line is read by rules that know nothing of each other: there is no negative
literal, so a minus sign in front of digits is an operator, and the digits have to denote an integer
of 32 bits by themselves. Those of the least integer do not.

* `evaluate_of_words`: what a line comes to whose words are the leaves of a tree.
* `evaluate_literal`, `evaluate_negated`: literals, and numbers behind a minus sign.
* **`results_read_back`**: what the printed result of a line comes to.
-/

namespace Reckoner

open Lexeme Expression

variable {line : String} {e : Expression} {typed : TypedExpression} {x : Lexeme} {v : Value}

/-! ## Lines of given words -/

/-- **A line comes to what its words make up**, or to the notes about its pieces. -/
theorem evaluate_of_words (hleaves : e.leaves = words 0 line.toList) (hs : e.Shaped 0)
    (hp : e.Proper) (hn : e.height ≤ nestingLimit) (ht : e.Resolves typed) :
    evaluate line = if notes 0 line.toList = [] then typed.evaluate.map .value
      else .ok (.diagnostics (notes 0 line.toList).toArray) := by
  have hparsed : ParsedLine.ofString line =
      ⟨e, .ending line.utf8ByteSize, (notes 0 line.toList).toArray⟩ := by
    rw [ParsedLine.ofString, Parser.ofString_eq, Parser.finish_of_shaped hs hp hleaves.symm]
    intro n hmem
    obtain rfl : nestingLimit = n := Option.some.inj hmem
    simpa using hn
  rw [evaluate, Analysis.ofString, hparsed, ht.elaborate_eq, Analysis.evaluate]
  simp

theorem Lexeme.kind_of_value? (hv : x.value? = some v) :
    x.kind = .number ∨ x.kind = .trueWord ∨ x.kind = .falseWord := by
  unfold value? at hv
  split at hv <;> simp_all

theorem evaluate_literal (hx : cut x.text = [x]) (hv : x.value? = some v)
    (hd : ∀ n, x.diagnostic? n = none) : evaluate (String.ofList x.text) = .ok (.value v) := by
  have hkind := kind_of_value? hv
  have hword : x.kind.isSeparator = false := by
    rcases hkind with hk | hk | hk <;> rw [hk] <;> rfl
  have hresolves := Resolves.literal (x.token 0)
  have hdenoted : (x.token 0).denoted = v := by rw [Token.denoted, token, hv, Option.getD_some]
  rw [hdenoted] at hresolves
  have hleaves : (literal (x.token 0)).leaves = words 0 (String.ofList x.text).toList := by
    rw [String.toList_ofList, words_text hx hword, leaves]
  rw [evaluate_of_words hleaves shaped_literal hkind (show 1 ≤ nestingLimit by decide) hresolves,
    String.toList_ofList, notes_text hx hd, if_pos rfl]
  rfl

/-! ## Numbers -/

theorem Lexeme.cut_numeral (n : Nat) : cut (numeral n).text = [numeral n] := by
  have hcut := @cut_digits (Nat.toDigits 10 n) [] Nat.toDigits_ne_nil (isDigit_toDigits n)
    fun c hc => absurd hc (Option.not_mem_none c)
  rwa [List.append_nil, cut_nil] at hcut

theorem Lexeme.value?_numeral (n : Nat) : (numeral n).value? = some (.integer (.ofNat n)) := by
  rw [value?, numeral, number_eq, Decimal.value_toDigits, Int32.ofInt_eq_ofNat]

theorem Lexeme.apart_minus (n : Nat) :
    Apart TokenKind.minus.spelling.toList (numeral n).text := by
  have hapart := @apart_digits (Nat.toDigits 10 n) TokenKind.minus.spelling.toList
    Nat.toDigits_ne_nil (isDigit_toDigits n) (by rintro c ⟨⟩; rfl) []
  rwa [List.append_nil] at hapart

theorem Lexeme.diagnostic?_numeral (n position : Nat) :
    ((numeral n).diagnostic? position).toList = if 2147483647 < n
      then [⟨⟨position, (Decimal.natural n).utf8ByteSize⟩, .invalidNumber (Decimal.natural n)⟩]
      else [] := by
  have hnote := diagnostic?_number Nat.toDigits_ne_nil (isDigit_toDigits n) position
  simp only [Decimal.value_toDigits, Decimal.not_isPadded_toDigits, or_false] at hnote
  exact hnote

/-- **A number behind a minus sign comes to its negation**, if it fits 32 bits without the sign; else
its digits are the only thing that is noted. -/
theorem evaluate_negated (n : Nat) : evaluate ("-" ++ Decimal.natural n) =
    if 2147483647 < n then .ok (.diagnostics
      #[⟨⟨1, (Decimal.natural n).utf8ByteSize⟩, .invalidNumber (Decimal.natural n)⟩])
    else .ok (.value (.integer (-.ofNat n))) := by
  have hline : ("-" ++ Decimal.natural n).toList =
      TokenKind.minus.spelling.toList ++ (numeral n).text := by
    rw [String.toList_append, Decimal.toList_natural]
    rfl
  have hleaves : (unary (TokenKind.minus.sign.token 0) (literal ((numeral n).token 1))).leaves =
      words 0 ("-" ++ Decimal.natural n).toList := by
    rw [hline, words_append (apart_minus n), words_sign (by decide),
      words_text (cut_numeral n) rfl]
    rfl
  have hnotes : notes 0 ("-" ++ Decimal.natural n).toList =
      ((numeral n).diagnostic? 1).toList := by
    rw [hline, notes_append (apart_minus n), notes_sign (by decide), List.nil_append, notes,
      cut_numeral]
    simp [placed]
    rfl
  have hdenoted : ((numeral n).token 1).denoted = .integer (.ofNat n) := by
    rw [Token.denoted, token, value?_numeral, Option.getD_some]
  have hresolves : (unary (TokenKind.minus.sign.token 0) (literal ((numeral n).token 1))).Resolves
      (.unary ⟨.minus, .negation, .integer, .integer⟩ (.literal (.integer (.ofNat n)))) :=
    .unary (hdenoted ▸ .literal _) (by decide) rfl rfl
  have hshaped : (unary (TokenKind.minus.sign.token 0) (literal ((numeral n).token 1))).Shaped 0 :=
    shaped_unary.mpr ⟨7, rfl, Nat.zero_le 7, shaped_literal⟩
  rw [evaluate_of_words hleaves hshaped ⟨by decide, .inl rfl⟩ (show 2 ≤ nestingLimit by decide)
    hresolves, hnotes, diagnostic?_numeral]
  split
  · rfl
  · rfl

/-! ## Printed values -/

theorem evaluate_truth (b : Bool) : evaluate (Value.boolean b).text = .ok (.value (.boolean b)) := by
  cases b with
  | false =>
    exact @evaluate_literal ⟨.falseWord, "false".toList⟩ _ (cut_eq_singleton rfl) rfl fun _ => rfl
  | true =>
    exact @evaluate_literal ⟨.trueWord, "true".toList⟩ _ (cut_eq_singleton rfl) rfl fun _ => rfl

theorem evaluate_integer {k : Int32} (hk : k ≠ Int32.minValue) :
    evaluate (Value.integer k).text = .ok (.value (.integer k)) := by
  have hlow := k.le_toInt
  have hhigh := k.toInt_lt
  cases hint : k.toInt with
  | ofNat n =>
    have hn : n ≤ 2147483647 := by
      rw [hint, Int.ofNat_eq_natCast] at hhigh
      omega
    have hself : Int32.ofNat n = k := by
      rw [← Int32.ofInt_eq_ofNat, ← Int.ofNat_eq_natCast, ← hint, Int32.ofInt_toInt]
    have hliteral := evaluate_literal (cut_numeral n) (value?_numeral n)
      fun position => (numeral_spec hn position).2
    rw [hself] at hliteral
    rw [Value.text, hint]
    exact hliteral
  | negSucc n =>
    -- only the digits of the least integer leave the range
    have hn : ¬ 2147483647 < n + 1 := by
      intro hlarge
      have hleast : k.toInt = Int32.minValue.toInt := by
        rw [hint]
        have : Int32.minValue.toInt = -2147483648 := rfl
        omega
      exact hk (Int32.toInt_inj.mp hleast)
    have hself : -Int32.ofNat (n + 1) = k := by
      have hneg : -((n + 1 : Nat) : Int) = k.toInt := hint.symm
      rw [← Int32.ofInt_eq_ofNat, ← Int32.ofInt_neg, hneg, Int32.ofInt_toInt]
    rw [Value.text, hint, Decimal.integer, evaluate_negated, if_neg hn, hself]

/-- **Printed integers and truth values are read back.** The text of the value of a line comes to that
value again, if it is an integer or a truth value, with one exception: the digits of the least integer
are more than an integer of 32 bits if the sign is left aside, and this is the only thing that is
noted. -/
theorem results_read_back (line : String) (v : Value) (h : evaluate line = .ok (.value v)) :
    (v.type = .integer ∨ v.type = .boolean → v ≠ .integer Int32.minValue →
      evaluate v.text = evaluate line) ∧
    (v = .integer Int32.minValue → v.text = "-2147483648" ∧
      evaluate v.text = .ok (.diagnostics #[⟨⟨1, 10⟩, .invalidNumber "2147483648"⟩])) := by
  constructor
  · intro htype hleast
    rw [h]
    rcases htype with htype | htype
    · obtain ⟨k, rfl⟩ := Value.exists_integer htype
      exact evaluate_integer fun hk => hleast (congrArg Value.integer hk)
    · obtain ⟨b, rfl⟩ := Value.exists_boolean htype
      exact evaluate_truth b
  · rintro rfl
    have hdigits : Decimal.natural 2147483648 = "2147483648" := by decide
    have htext : (Value.integer Int32.minValue).text = "-2147483648" := by decide
    have hnegated := evaluate_negated 2147483648
    rw [hdigits, if_pos (by decide)] at hnegated
    exact ⟨htext, htext ▸ hnegated⟩

/-- A difference with a negative result, and a sum that overflows to the least integer. -/
theorem results_read_back_negative :
    evaluate "7 - 9" = .ok (.value (.integer (-2))) ∧ evaluate "-2" = evaluate "7 - 9" ∧
    evaluate "2147483647 + 1" = .ok (.value (.integer Int32.minValue)) ∧
      evaluate "-2147483648" =
        .ok (.diagnostics #[⟨⟨1, 10⟩, .invalidNumber "2147483648"⟩]) := by
  have hchain {v : Nat} (x : Link) (hv : v ≤ 2147483647) (hx : x.IsOf [.plus, .minus])
      (hdiv : x.divisionByZero? = none) :
      evaluate (chainLine v [x]) = .ok (.value (.integer (folded (.ofNat v) [x]))) := by
    have hlinks := List.forall_mem_singleton.mpr hx
    exact evaluate_chainLine hv hlinks (by decide) (show 2 ≤ nestingLimit by decide)
      ((comesTo_numeral hv 0).linked_fold hlinks (by decide) (List.forall_mem_singleton.mpr hdiv) _)
  have hdifference := @hchain 7 ⟨.minus, 9⟩ (by decide) ⟨by decide, by decide⟩ rfl
  have hsum := @hchain 2147483647 ⟨.plus, 1⟩ (by decide) ⟨by decide, by decide⟩ rfl
  rw [show chainLine 7 [⟨.minus, 9⟩] = "7 - 9" by decide,
    show folded (.ofNat 7) [⟨.minus, 9⟩] = -2 by decide] at hdifference
  rw [show chainLine 2147483647 [⟨.plus, 1⟩] = "2147483647 + 1" by decide,
    show folded (.ofNat 2147483647) [⟨.plus, 1⟩] = Int32.minValue by decide] at hsum
  obtain ⟨hnegative, -⟩ := results_read_back _ _ hdifference
  obtain ⟨-, hleast⟩ := results_read_back _ _ hsum
  obtain ⟨htext, hnoted⟩ := hleast rfl
  rw [htext] at hnoted
  refine ⟨hdifference, ?_, hsum, hnoted⟩
  have hback := hnegative (.inl rfl) fun h => absurd (Value.integer.inj h) (by decide)
  rwa [show (Value.integer (-2)).text = "-2" by decide] at hback

end Reckoner
