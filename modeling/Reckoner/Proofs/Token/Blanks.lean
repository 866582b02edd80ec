import Reckoner.Proofs.Token.Places

/-!
# Blanks between pieces

Blanks that are put between two pieces of a line are a piece of their own, or part of the blanks
that stand there already. So the other pieces stay what they are, and those behind the blanks move.

* `Lexeme.solid`: the pieces that are not blank, in their places; `words_eq`, `notes_eq`: what is
  parsed and what is noted depends on them alone.
* `Lexeme.solid_append`: blanks cut every text apart.
* **`Lexeme.solid_insert`**: blanks between two pieces push on what stands behind them; hence
  `words_insert`, `notes_insert`.
* `boundaries`: where tokens begin, and the end of the line; `exists_cut_append`: there a line is
  cut apart.
-/

namespace Reckoner

/-- Where the byte at `n` comes to stand if `length` bytes are put in at `position`. -/
def pushed (position length n : Nat) : Nat :=
  if position ≤ n then n + length else n

namespace Lexeme

/-- The pieces of a text at `position` that are not blank, in their places. -/
def solid (position : Nat) (s : List Char) : List (Lexeme × Nat) :=
  (placed position (cut s)).filter fun y => y.1.kind != .blank

variable {s t w : List Char} {c : Char} {position k : Nat} {x : Lexeme} {y : Lexeme × Nat}

theorem words_eq (position : Nat) (s : List Char) : words position s =
    ((solid position s).filter fun y => !y.1.kind.isSeparator).map fun y => y.1.token y.2 := by
  have hkind (k : TokenKind) : (!k.isSeparator && k != .blank) = !k.isSeparator := by
    cases k <;> rfl
  simp [words, solid, hkind]

theorem notes_eq (position : Nat) (s : List Char) : notes position s =
    (solid position s).flatMap fun y => (y.1.diagnostic? y.2).toList := by
  rw [notes, solid]
  generalize placed position (cut s) = ys
  induction ys with
  | nil => rfl
  | cons y ys ih =>
    by_cases hk : y.1.kind = .blank
    · have hnone : y.1.diagnostic? y.2 = none := by simp [diagnostic?, hk]
      simp [hk, hnone, ih]
    · simp [hk, ih]

@[simp] theorem solid_nil (position : Nat) : solid position [] = [] := by
  simp [solid, placed]

theorem solid_cons (position : Nat) (c : Char) (s : List Char) : solid position (c :: s) =
    [((first c s).1, position)].filter (fun y => y.1.kind != .blank) ++
      solid (position + bytes (first c s).1.text) (first c s).2 := by
  rw [solid, cut_cons, placed, ← List.singleton_append, List.filter_append]
  rfl

/-! ## Blanks in front of a text -/

theorem solid_dropWhile (position : Nat) (s : List Char) : solid position s =
    solid (position + bytes (s.takeWhile Text.isBlank)) (s.dropWhile Text.isBlank) := by
  cases s with
  | nil => simp
  | cons c s =>
    by_cases hc : Text.isBlank c = true
    · have hfirst : first c s =
          (⟨.blank, c :: s.takeWhile Text.isBlank⟩, s.dropWhile Text.isBlank) := by
        simp [first, ofChar_of_isBlank hc]
      rw [solid_cons, hfirst]
      simp [hc]
    · simp [hc, bytes]

theorem solid_blanks (hw : ∀ c ∈ w, Text.isBlank c = true) (position : Nat) (s : List Char) :
    solid position (w ++ s) = solid (position + bytes w) s := by
  rw [solid_dropWhile, List.takeWhile_append_of_pos hw, List.dropWhile_append_of_pos hw,
    bytes_append, ← Nat.add_assoc, ← solid_dropWhile]

/-! ## Texts that are put together -/

theorem solid_append_of_cut (h : cut (s ++ t) = cut s ++ cut t) (position : Nat) :
    solid position (s ++ t) = solid position s ++ solid (position + bytes s) t := by
  rw [solid, h, placed_append, bytes_flatMap_cut, List.filter_append]
  rfl

/-- **Blanks cut every text apart.** Those at its end may become part of a longer piece, but that
one is blank as well. -/
theorem solid_append (h : ∀ d ∈ t.head?, Text.isBlank d = true) (position : Nat) :
    solid position (s ++ t) = solid position s ++ solid (position + bytes s) t := by
  induction s using cut.induct generalizing position with
  | case1 => simp [bytes]
  | case2 c cs ih =>
    -- a piece may only grow by what follows if it is the last one and blank itself
    by_cases hlast : (first c cs).1.kind = .blank ∧ (first c cs).2 = []
    · obtain ⟨hk, hnil⟩ := hlast
      have htext : (first c cs).1.text = c :: cs := by
        rw [← first_append c cs, hnil, List.append_nil]
      have hblank : ∀ d ∈ c :: cs, Text.isBlank d = true :=
        htext ▸ fun d hd => ((inClass_first c cs).class_mem hd).2.1.mpr hk
      have hself := solid_blanks hblank position []
      rw [List.append_nil, solid_nil] at hself
      rw [solid_blanks hblank, hself, List.nil_append]
    · have hfirst : first c (cs ++ t) = ((first c cs).1, (first c cs).2 ++ t) := by
        refine first_append_of_apart fun hnil d hd => takes_of_isBlank (h d hd) fun hk => ?_
        exact hlast ⟨hk, hnil⟩
      have hsize : bytes (c :: cs) = bytes (first c cs).1.text + bytes (first c cs).2 := by
        rw [← bytes_append, first_append]
      rw [List.cons_append, solid_cons, hfirst, ih, solid_cons, List.append_assoc, hsize,
        Nat.add_assoc]

theorem solid_add (position k : Nat) (s : List Char) :
    solid (position + k) s = (solid position s).map fun y => (y.1, y.2 + k) := by
  simp [solid, placed_add, List.filter_map, Function.comp_def]

theorem cut_flatMap_append {xs ys : List Lexeme} (h : cut s = xs ++ ys) :
    xs.flatMap text ++ ys.flatMap text = s ∧
      cut s = cut (xs.flatMap text) ++ cut (ys.flatMap text) := by
  have hclass : ∀ x ∈ xs ++ ys, x.InClass := fun x hx => inClass_of_mem_cut (h ▸ hx)
  have hchain : (xs ++ ys).IsChain Separate := h ▸ isChain_cut s
  have hxs := cut_flatMap_text (fun x hx => hclass x (List.mem_append_left _ hx))
    hchain.left_of_append
  have hys := cut_flatMap_text (fun x hx => hclass x (List.mem_append_right _ hx))
    hchain.right_of_append
  refine ⟨?_, by rw [h, hxs, hys]⟩
  rw [← List.flatMap_append, ← h, flatMap_text_cut]

/-! ## Places -/

theorem bounds_of_mem_solid (hy : y ∈ solid position s) :
    position ≤ y.2 ∧ y.2 < position + bytes s := by
  have hplaced := (List.mem_filter.mp hy).1
  obtain ⟨before, after, htext, hplace⟩ := exists_flatMap_text_eq hplaced
  rw [flatMap_text_cut] at htext
  have hsize : bytes s = bytes before + bytes y.1.text + bytes after := by
    rw [htext, bytes_append, bytes_append]
  have hpos := bytes_pos (inClass_of_mem_cut (mem_of_mem_placed hplaced)).text_ne_nil
  omega

theorem bounds_of_mem_notes {d : Diagnostic} (hd : d ∈ notes position s) :
    position ≤ d.span.start ∧ d.span.start < position + bytes s := by
  rw [notes_eq] at hd
  obtain ⟨y, hy, hnote⟩ := List.mem_flatMap.mp hd
  have hclass := inClass_of_mem_cut (mem_of_mem_placed (List.mem_filter.mp hy).1)
  rw [hclass.span_eq (Option.mem_toList.mp hnote)]
  exact bounds_of_mem_solid hy

/-- **Blanks between two pieces push on what stands behind them** and change nothing else. -/
theorem solid_insert (hcut : cut (s ++ t) = cut s ++ cut t)
    (hw : ∀ c ∈ w, Text.isBlank c = true) : solid 0 (s ++ (w ++ t)) =
      (solid 0 (s ++ t)).map fun y => (y.1, pushed (bytes s) (bytes w) y.2) := by
  have happart : solid 0 (s ++ (w ++ t)) = solid 0 s ++ solid (bytes s) (w ++ t) := by
    cases w with
    | nil => simpa using solid_append_of_cut hcut 0
    | cons c w =>
      have hhead : ∀ d ∈ (c :: w ++ t).head?, Text.isBlank d = true := by
        intro d hd
        obtain rfl : c = d := Option.some.inj hd
        exact hw c List.mem_cons_self
      simpa using solid_append hhead 0
  have hfront : (solid 0 s).map (fun y => (y.1, pushed (bytes s) (bytes w) y.2)) = solid 0 s := by
    refine (List.map_congr_left fun y hy => ?_).trans (List.map_id _)
    have hbound := (bounds_of_mem_solid hy).2
    rw [pushed, if_neg (by omega)]
    rfl
  have hback : (solid (bytes s) t).map (fun y => (y.1, pushed (bytes s) (bytes w) y.2)) =
      solid (bytes s + bytes w) t := by
    rw [solid_add]
    refine List.map_congr_left fun y hy => ?_
    rw [pushed, if_pos (bounds_of_mem_solid hy).1]
  rw [happart, solid_blanks hw, solid_append_of_cut hcut, List.map_append, Nat.zero_add, hfront,
    hback]

theorem words_insert (hcut : cut (s ++ t) = cut s ++ cut t)
    (hw : ∀ c ∈ w, Text.isBlank c = true) : words 0 (s ++ (w ++ t)) =
      (words 0 (s ++ t)).map (Token.relocate (pushed (bytes s) (bytes w))) := by
  rw [words_eq, solid_insert hcut hw, words_eq, List.filter_map, List.map_map, List.map_map]
  rfl

theorem notes_insert (hcut : cut (s ++ t) = cut s ++ cut t)
    (hw : ∀ c ∈ w, Text.isBlank c = true) : notes 0 (s ++ (w ++ t)) =
      (notes 0 (s ++ t)).map (Diagnostic.relocate (pushed (bytes s) (bytes w))) := by
  rw [notes_eq, solid_insert hcut hw, notes_eq, List.flatMap_map, List.map_flatMap]
  refine List.flatMap_congr fun y _ => ?_
  rw [diagnostic?_relocate]
  cases y.1.diagnostic? y.2 <;> rfl

end Lexeme

/-- The places of a line at which a token begins, and its end. -/
def boundaries (line : String) : List Nat :=
  (Lexer.ofString line).drain.1.toList.map Token.position

open Lexeme

variable {line : String} {p : Nat}

theorem boundaries_eq (line : String) : boundaries line =
    (placed 0 (cut line.toList)).map Prod.snd ++ [line.utf8ByteSize] := by
  rw [boundaries, Lexer.toList_drain, List.map_append, List.map_map]
  rfl

theorem mem_boundaries (line : String) :
    0 ∈ boundaries line ∧ line.utf8ByteSize ∈ boundaries line := by
  rw [boundaries_eq]
  refine ⟨?_, List.mem_append_right _ (List.mem_singleton.mpr rfl)⟩
  cases hcut : cut line.toList with
  | nil =>
    have hsize := bytes_flatMap_cut line.toList
    rw [hcut, bytes_toList] at hsize
    exact List.mem_singleton.mpr hsize
  | cons x xs => exact List.mem_cons_self

/-- **At its boundaries a line is cut apart.** -/
theorem exists_cut_append (hp : p ∈ boundaries line) : ∃ before after : String,
    line = before ++ after ∧ before.utf8ByteSize = p ∧
    cut (before.toList ++ after.toList) = cut before.toList ++ cut after.toList := by
  rw [boundaries_eq] at hp
  rcases List.mem_append.mp hp with hp | hp
  · obtain ⟨y, hy, rfl⟩ := List.mem_map.mp hp
    obtain ⟨before, after, hpieces, hplace⟩ := exists_eq_append hy
    obtain ⟨htext, hcut⟩ := cut_flatMap_append hpieces
    refine ⟨String.ofList (before.flatMap text), String.ofList ((y.1 :: after).flatMap text), ?_, ?_,
      ?_⟩
    · rw [← String.ofList_append, htext]
      exact String.ofList_toList.symm
    · exact (Nat.zero_add _).symm.trans hplace.symm
    · rw [String.toList_ofList, String.toList_ofList, htext]
      exact hcut
  · exact ⟨line, "", by simp, (List.mem_singleton.mp hp).symm, by simp⟩

end Reckoner
