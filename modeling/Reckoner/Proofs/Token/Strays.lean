import Reckoner.Proofs.Token.Blanks

/-!
# Stray characters

A stray character only separates the pieces beside it, and so would blanks. If blanks take its
place, as many as it has bytes, they may grow together with other blanks, but every other piece
stays what it is and where it is.

* `Lexeme.cleared`, `cleared`: a piece and a line with blanks in the place of stray characters.
* **`Lexeme.solid_cleared`**: the pieces of a cleared text; hence `words_cleared`, `notes_cleared`:
  what is parsed is the same, and only the notes about stray characters are gone.
* `kind_ne_stray_of_cleared`: no piece of a cleared line is a stray character.
-/

namespace Reckoner

theorem TokenKind.isSeparator_eq_false {k : TokenKind} :
    k.isSeparator = false ↔ k ≠ .blank ∧ k ≠ .stray := by
  cases k <;> decide

/-- The diagnostic is about a stray character. -/
def Diagnostic.isStray (d : Diagnostic) : Bool :=
  d.complaint matches .strayCharacter _

/-- The characters of a token, or blanks if it is a stray character: as many as it has bytes. -/
def Token.cleared (t : Token) : List Char :=
  if t.kind = .stray then List.replicate t.literal.utf8ByteSize ' ' else t.literal.toList

/-- The line with blanks in the place of its stray characters. -/
def cleared (line : String) : String :=
  String.ofList ((Lexer.ofString line).drain.1.toList.flatMap Token.cleared)

namespace Lexeme

/-- The characters of a piece, or blanks if it is a stray character: as many as it has bytes. -/
def cleared (x : Lexeme) : List Char :=
  if x.kind = .stray then List.replicate (bytes x.text) ' ' else x.text

variable {x y : Lexeme} {xs : List Lexeme} {s : List Char} {d : Char} {position : Nat}

theorem cleared_of_ne (hk : x.kind ≠ .stray) : x.cleared = x.text :=
  if_neg hk

theorem bytes_replicate (n : Nat) : bytes (List.replicate n ' ') = n := by
  induction n with
  | zero => rfl
  | succ n ih =>
    have hblank : bytes [' '] = 1 := by decide
    rw [List.replicate_succ', bytes_append, ih, hblank]

theorem bytes_cleared (x : Lexeme) : bytes x.cleared = bytes x.text := by
  unfold cleared
  split
  · exact bytes_replicate _
  · rfl

theorem isBlank_of_mem_cleared (hx : x.InClass) (hk : x.kind.isSeparator = true)
    (hd : d ∈ x.cleared) : Text.isBlank d = true := by
  unfold cleared at hd
  split at hd
  · rw [List.eq_of_mem_replicate hd]
    rfl
  · next hstray =>
    refine (hx.class_mem hd).2.1.mpr ?_
    cases hkind : x.kind <;> simp_all [TokenKind.isSeparator]

theorem cleared_ne_nil (hx : x.InClass) : x.cleared ≠ [] := by
  intro hnil
  have hsize := bytes_cleared x
  rw [hnil] at hsize
  exact (bytes_pos hx.text_ne_nil).ne hsize

/-- What a piece does not go on with, it does not go on with if stray characters are blanks. -/
theorem takes_head_cleared (hx : x.InClass) (hy : y.InClass) (hk : x.kind.isSeparator = false)
    (hsep : Separate x y) (hd : y.cleared.head? = some d) : x.takes d = false := by
  cases hky : y.kind.isSeparator with
  | true =>
    exact takes_of_isBlank (isBlank_of_mem_cleared hy hky (List.mem_of_head? hd))
      (TokenKind.isSeparator_eq_false.mp hk).1
  | false =>
    rw [cleared_of_ne (TokenKind.isSeparator_eq_false.mp hky).2] at hd
    exact (separate_iff hx hy hd).mp hsep

/-- **Without its stray characters a text has the same pieces in the same places**, apart from
blanks. -/
theorem solid_cleared (hclass : ∀ x ∈ xs, x.InClass) (hchain : xs.IsChain Separate)
    (position : Nat) : solid position (xs.flatMap cleared) =
      (placed position xs).filter fun y => !y.1.kind.isSeparator := by
  induction xs generalizing position with
  | nil => simp [placed]
  | cons x xs ih =>
    obtain ⟨hx, hxs⟩ := List.forall_mem_cons.mp hclass
    obtain ⟨hnext, hchain⟩ := List.isChain_cons.mp hchain
    have hmore := ih hxs hchain (position + bytes x.cleared)
    rw [List.flatMap_cons, placed, ← bytes_cleared]
    cases hk : x.kind.isSeparator with
    | true =>
      rw [solid_blanks fun d hd => isBlank_of_mem_cleared hx hk hd, hmore]
      simp [hk]
    | false =>
      obtain ⟨hblank, hstray⟩ := TokenKind.isSeparator_eq_false.mp hk
      have hself : solid position x.text = [(x, position)] := by
        rw [solid, hx.cut_text]
        simp [placed, hblank]
      rw [cleared_of_ne hstray] at hmore ⊢
      have hcut : cut (x.text ++ xs.flatMap cleared) = cut x.text ++ cut (xs.flatMap cleared) := by
        refine cut_append fun z hz d hd => ?_
        obtain rfl : x = z := by simpa [hx.cut_text] using hz
        cases xs with
        | nil => simp at hd
        | cons y ys =>
          have hy := hxs y List.mem_cons_self
          rw [List.flatMap_cons, List.head?_append_of_ne_nil _ (cleared_ne_nil hy)] at hd
          exact takes_head_cleared hx hy hk (hnext y rfl) hd
      rw [solid_append_of_cut hcut, hmore, hself]
      simp [hk]

theorem solid_flatMap_cleared (position : Nat) (s : List Char) :
    solid position ((cut s).flatMap cleared) =
      (placed position (cut s)).filter fun y => !y.1.kind.isSeparator :=
  solid_cleared (fun _ hx => inClass_of_mem_cut hx) (isChain_cut s) position

theorem words_cleared (position : Nat) (s : List Char) :
    words position ((cut s).flatMap cleared) = words position s := by
  rw [words_eq, solid_flatMap_cleared, List.filter_filter]
  simp [words]

theorem filter_diagnostic? (x : Lexeme) (position : Nat) :
    (x.diagnostic? position).toList.filter (fun d => !d.isStray) =
      if x.kind.isSeparator then [] else (x.diagnostic? position).toList := by
  unfold diagnostic?
  split
  · next hk =>
    dsimp only
    split <;> simp [hk, TokenKind.isSeparator, Diagnostic.isStray]
  · next hk _ =>
    simp [hk, TokenKind.isSeparator, Diagnostic.isStray, Diagnostic.strayCharacter]
  · simp

theorem notes_cleared (position : Nat) (s : List Char) :
    notes position ((cut s).flatMap cleared) =
      (notes position s).filter fun d => !d.isStray := by
  rw [notes_eq, solid_flatMap_cleared, notes, List.filter_flatMap]
  generalize placed position (cut s) = ys
  induction ys with
  | nil => rfl
  | cons y ys ih =>
    rw [List.flatMap_cons, filter_diagnostic?, ← ih]
    cases hk : y.1.kind.isSeparator <;> simp [hk]

theorem kind_ne_stray_of_cleared (hx : x ∈ cut ((cut s).flatMap cleared)) : x.kind ≠ .stray := by
  intro hstray
  rw [← map_fst_placed 0 (cut _)] at hx
  obtain ⟨y, hy, rfl⟩ := List.mem_map.mp hx
  have hsolid : y ∈ solid 0 ((cut s).flatMap cleared) := List.mem_filter.mpr ⟨hy, by simp [hstray]⟩
  rw [solid_flatMap_cleared] at hsolid
  have hk := (List.mem_filter.mp hsolid).2
  rw [Bool.not_eq_true'] at hk
  exact (TokenKind.isSeparator_eq_false.mp hk).2 hstray

end Lexeme

open Lexeme

/-! ## Lines -/

theorem Lexeme.cleared_token (x : Lexeme) (position : Nat) :
    (x.token position).cleared = x.cleared := by
  rw [Token.cleared, Lexeme.cleared, token, bytes, String.toList_ofList]

theorem toList_cleared (line : String) :
    (cleared line).toList = (cut line.toList).flatMap Lexeme.cleared := by
  rw [cleared, String.toList_ofList, Lexer.toList_drain, List.flatMap_append, List.flatMap_map]
  have hpieces : (placed 0 (cut line.toList)).flatMap (fun x => (x.1.token x.2).cleared) =
      (cut line.toList).flatMap Lexeme.cleared := by
    simp only [cleared_token]
    rw [← List.flatMap_map, map_fst_placed]
  rw [hpieces]
  exact List.append_nil _

theorem utf8ByteSize_cleared (line : String) : (cleared line).utf8ByteSize = line.utf8ByteSize := by
  rw [← bytes_toList, toList_cleared, ← bytes_toList, ← bytes_flatMap_cut line.toList]
  generalize cut line.toList = xs
  induction xs with
  | nil => rfl
  | cons x xs ih => rw [List.flatMap_cons, List.flatMap_cons, bytes_append, bytes_append, ih,
      bytes_cleared]

end Reckoner
