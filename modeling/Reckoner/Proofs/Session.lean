import Reckoner.CommandLine

/-!
# Sessions line by line

A session answers the lines of its input one after another, and what it writes for a line depends on
no other line but for the number of toggles in front of it. It ends at the first line that is blank or
no text.

* `Text.Lines.IsCut`: what the lines of a stream are, said without reading it; `isCut_iff`.
* `Session.answered`: the lines in front of the one that ends the session.
* `Session.respond_of_some`, `Session.respond_of_none`: what a session does with one line;
  `Session.runLines_eq`: with all of them.
* **`session_is_fold`**: what a session writes, and how it ends.
-/

namespace Reckoner

namespace Text.Lines

/-! ## Lines of a stream -/

/-- The line without the carriage return at its end. -/
def withoutReturn (line : List UInt8) : List UInt8 :=
  if line.getLast? = some 0x0d then line.dropLast else line

/-- The stream consists of pieces that end at line feeds, which are lines without the carriage returns
in front of these, and of a rest, which is a line if it is not empty. -/
def IsCut (input : List UInt8) (lines : List (List UInt8)) : Prop :=
  ∃ (ended : List (List UInt8)) (rest : List UInt8),
    (∀ piece ∈ ended, 0x0a ∉ piece) ∧ 0x0a ∉ rest ∧
    input = ended.flatMap (· ++ [0x0a]) ++ rest ∧
    lines = ended.map withoutReturn ++ if rest = [] then [] else [rest]

variable {b : UInt8} {piece rest input : List UInt8} {lines : List (List UInt8)}

theorem cut_cons (hb : b ≠ 0x0a) (h : b = 0x0d → rest.head? ≠ some 0x0a) :
    cut (b :: rest) = prepend b (cut rest) := by
  rw [cut]
  · exact hb
  · rintro more rfl rfl
    exact h rfl rfl

theorem withoutReturn_cons (b : UInt8) (h : piece ≠ []) :
    withoutReturn (b :: piece) = b :: withoutReturn piece := by
  obtain ⟨c, more, rfl⟩ := List.exists_cons_of_ne_nil h
  simp only [withoutReturn, List.getLast?_cons_cons, List.dropLast_cons_cons]
  split <;> rfl

theorem cut_of_not_mem (h : (0x0a : UInt8) ∉ rest) :
    cut rest = if rest = [] then [] else [rest] := by
  induction rest with
  | nil => rfl
  | cons b rest ih =>
    obtain ⟨hb, hrest⟩ := List.ne_and_not_mem_of_not_mem_cons h
    rw [cut_cons (Ne.symm hb) fun _ hhead => hrest (List.mem_of_head? hhead), ih hrest]
    cases rest <;> rfl

theorem cut_append (h : (0x0a : UInt8) ∉ piece) (more : List UInt8) :
    cut (piece ++ 0x0a :: more) = withoutReturn piece :: cut more := by
  induction piece with
  | nil => rw [List.nil_append, cut]; rfl
  | cons b piece ih =>
    obtain ⟨hb, hpiece⟩ := List.ne_and_not_mem_of_not_mem_cons h
    by_cases hreturn : b = 0x0d ∧ piece = []
    · obtain ⟨rfl, rfl⟩ := hreturn
      rw [List.singleton_append, cut]
      rfl
    · rw [List.cons_append, cut_cons (Ne.symm hb), ih hpiece, prepend]
      · congr 1
        by_cases hnil : piece = []
        · subst hnil
          have hb' : b ≠ 0x0d := fun hb' => hreturn ⟨hb', rfl⟩
          simp [withoutReturn, hb']
        · exact (withoutReturn_cons b hnil).symm
      · intro hb' hhead
        cases piece with
        | nil => exact hreturn ⟨hb', rfl⟩
        | cons c piece =>
          obtain rfl : c = 0x0a := Option.some.inj hhead
          exact hpiece List.mem_cons_self

theorem exists_isCut (input : List UInt8) : ∃ lines, IsCut input lines := by
  suffices h : ∃ (ended : List (List UInt8)) (rest : List UInt8),
      (∀ piece ∈ ended, 0x0a ∉ piece) ∧ 0x0a ∉ rest ∧ input = ended.flatMap (· ++ [0x0a]) ++ rest by
    obtain ⟨ended, rest, hended, hrest, hinput⟩ := h
    exact ⟨_, ended, rest, hended, hrest, hinput, rfl⟩
  induction input with
  | nil => exact ⟨[], [], by simp, by simp, rfl⟩
  | cons b input ih =>
    obtain ⟨ended, rest, hended, hrest, rfl⟩ := ih
    by_cases hb : b = 0x0a
    · subst hb
      exact ⟨[] :: ended, rest, by simpa using hended, hrest, rfl⟩
    · cases ended with
      | nil => exact ⟨[], b :: rest, by simp, by simp [Ne.symm hb, hrest], rfl⟩
      | cons piece ended =>
        obtain ⟨hpiece, hended⟩ := List.forall_mem_cons.mp hended
        refine ⟨(b :: piece) :: ended, rest, ?_, hrest, rfl⟩
        exact List.forall_mem_cons.mpr ⟨by simp [Ne.symm hb, hpiece], hended⟩

/-- **The lines of a stream are what is cut off it.** -/
theorem isCut_iff : IsCut input lines ↔ lines = cut input := by
  have hcut {lines : List (List UInt8)} (h : IsCut input lines) : lines = cut input := by
    obtain ⟨ended, rest, hended, hrest, rfl, rfl⟩ := h
    induction ended with
    | nil => exact (cut_of_not_mem hrest).symm
    | cons piece ended ih =>
      obtain ⟨hpiece, hended⟩ := List.forall_mem_cons.mp hended
      rw [List.map_cons, List.cons_append, ih hended, List.flatMap_cons, List.append_assoc,
        List.append_assoc, List.singleton_append, cut_append hpiece]
  -- there is a way to cut the input, and it is the only one
  refine ⟨hcut, ?_⟩
  rintro rfl
  obtain ⟨lines, h⟩ := exists_isCut input
  rwa [← hcut h]

/-- The text of a line, if it is UTF-8 and not blank. -/
def readable? (line : List UInt8) : Option String :=
  (decode? line).filter fun text => !(trim text.toList).isEmpty

end Text.Lines

open Text.Lines

/-! ## What is written for a line -/

/-- What is written for a line about which a session is asked: its outline if that is wanted, and its
value if it has one. -/
def lineOutput (showTree : Bool) (line : String) : String :=
  (if showTree then (ParsedLine.ofString line).root.outline else "") ++
    match evaluate line with
    | .ok (.value v) => v.text ++ "\n"
    | _ => ""

theorem output_answer (showTree : Bool) (line : String) :
    (answer showTree line).output = lineOutput showTree line := by
  rw [answer, lineOutput, evaluate]
  cases (Analysis.ofString line).evaluate with
  | error f => exact (String.append_empty).symm
  | ok a =>
    cases a with
    | value v => exact String.append_assoc
    | diagnostics found => exact (String.append_empty).symm

namespace Session

/-- Whether a line turns the drawing of trees on or off. -/
def isToggle (line : String) : Bool :=
  Text.trim line.toList = toggle.toList

/-- Whether trees are drawn behind the given lines: an odd number of toggles changes it. -/
def showTreeAfter (showTree : Bool) (earlier : List String) : Bool :=
  xor showTree (earlier.countP isToggle % 2 = 1)

/-- What a session writes for a line, if it draws trees up to there or not. -/
def ownOutput (showTree : Bool) (line : String) : String :=
  if isToggle line then notice { showTree := !showTree } else lineOutput showTree line

/-- The lines in front of the first one that is blank or no text. -/
def answered (lines : List (List UInt8)) : List String :=
  (lines.takeWhile fun line => (readable? line).isSome).filterMap readable?

/-- The line that ends a session. -/
def last? (lines : List (List UInt8)) : Option (List UInt8) :=
  lines.find? fun line => (readable? line).isNone

/-- How a session ends whose last line this is. -/
def exitAt (line : List UInt8) : Exit :=
  if (decode? line).isNone then .unreadable else .success

variable {s : Session} {line : List UInt8} {lines : List (List UInt8)} {text : String}

theorem respond_of_none (h : readable? line = none) : s.respond line = .stop (exitAt line) := by
  rw [respond, exitAt]
  cases hd : decode? line with
  | none => rfl
  | some text =>
    have hblank : (Text.trim text.toList).isEmpty = true := by simpa [readable?, hd] using h
    simp [respondText, hblank]

theorem respond_of_some (h : readable? line = some text) : s.respond line =
    .resume ⟨xor s.showTree (isToggle text)⟩ (ownOutput s.showTree text) := by
  obtain ⟨hd, hblank⟩ := Option.filter_eq_some_iff.mp h
  have hfull : (Text.trim text.toList).isEmpty = false := by simpa using hblank
  rw [respond, hd]
  by_cases htoggle : Text.trim text.toList = toggle.toList
  · have hnonempty : toggle.toList.isEmpty = false := htoggle ▸ hfull
    simp only [respondText, htoggle, hnonempty, ownOutput, isToggle]
    simp [toggled]
  · simp [respondText, htoggle, hfull, ownOutput, isToggle, output_answer]

theorem showTreeAfter_cons (showTree : Bool) (line : String) (earlier : List String) :
    showTreeAfter showTree (line :: earlier) =
      showTreeAfter (xor showTree (isToggle line)) earlier := by
  have hparity := Nat.mod_two_eq_zero_or_one (earlier.countP isToggle)
  by_cases htoggle : isToggle line = true
  · rcases hparity with h | h
    · have hmore : (earlier.countP isToggle + 1) % 2 = 1 := by omega
      simp [showTreeAfter, htoggle, h, hmore]
    · have hmore : (earlier.countP isToggle + 1) % 2 = 0 := by omega
      simp [showTreeAfter, htoggle, h, hmore]
  · simp [showTreeAfter, htoggle]

/-- **A session is a fold over its lines.** -/
theorem runLines_eq (s : Session) (lines : List (List UInt8)) : s.runLines lines =
    { output := String.join ((answered lines).mapIdx fun i line =>
          prompt ++ ownOutput (showTreeAfter s.showTree ((answered lines).take i)) line) ++ prompt
      exit := ((last? lines).map exitAt).getD .success } := by
  induction lines generalizing s with
  | nil => rfl
  | cons line lines ih =>
    cases h : readable? line with
    | none =>
      have hanswered : answered (line :: lines) = [] := by simp [answered, h]
      have hlast : last? (line :: lines) = some line := by simp [last?, h]
      rw [runLines, respond_of_none h, hanswered, hlast]
      rfl
    | some text =>
      have hanswered : answered (line :: lines) = text :: answered lines := by simp [answered, h]
      have hlast : last? (line :: lines) = last? lines := by simp [last?, h]
      have hstart : showTreeAfter s.showTree [] = s.showTree := by simp [showTreeAfter]
      rw [runLines, respond_of_some h, hanswered, hlast]
      simp only [ih, List.mapIdx_cons, List.take_zero, List.take_succ_cons, showTreeAfter_cons,
        hstart, String.join_cons, String.append_assoc]

end Session

example : (Session.run {} "1 + 1\r\n#tree\n2\n \n3".toUTF8.data.toList).output =
    "> 2\n> showing syntax trees\n> └──LITERAL_EXPRESSION\n    └──NUMBER 2\n2\n> " := by
  decide +kernel

end Reckoner
