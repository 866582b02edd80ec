import Reckoner.CommandLine
import Reckoner.Proofs.Escapes
import Reckoner.Proofs.Expression.Drawn

/-!
# Listings

A listing shows a token on each line, its fields with single spaces between them. The characters of
a token may be spaces themselves, or none at all; but the name in front of them and the value behind
them hold no space, so the characters are what stands between the first space of a line and the last
one.

* `listingBy`: the listing of a line if characters are written in a given way.
* `middle`, `unlisted`: what stands between two fields, and the line that a listing shows.
* `Lexer.flatMap_literal_drain`: the characters of its tokens make up a line.
* **`listing_unambiguous`**: a line can be read off its listing, however characters are written.
-/

namespace Reckoner

/-! ## Listings in general -/

/-- The text of the value of a token. -/
def Token.valueText (t : Token) : String :=
  match t.value with
  | some v => v.text
  | none => "null"

/-- The line that lists a token if `e` writes its characters. -/
def Token.listingBy (e : List Char → List Char) (t : Token) : String :=
  t.kind.name ++ " " ++ String.ofList (e t.literal.toList) ++ " " ++ t.valueText

/-- The listing of a line if `e` writes the characters of tokens. -/
def listingBy (e : List Char → List Char) (line : String) : String :=
  Text.Lines.join ((Lexer.ofString line).drain.1.toList.map (Token.listingBy e))

theorem Command.output_tokenize (line : String) (input : List UInt8) :
    ((tokenize line).run input).output = listingBy Text.escape line :=
  rfl

/-! ## Reading a listing -/

/-- What stands behind the first space of a text. -/
def behindSpace (s : List Char) : List Char :=
  (s.dropWhile (· ≠ ' ')).tail

/-- What stands between the first space of a text and the last one. -/
def middle (s : List Char) : List Char :=
  (behindSpace (behindSpace s).reverse).reverse

/-- The line that a listing shows. -/
def unlisted (listing : String) : String :=
  String.ofList ((listing.toList.splitOn '\n').flatMap fun s => Text.unescape (middle s))

variable {e : List Char → List Char} {s t : List Char} {token : Token} {tokens : List Token}
  {line : String}

theorem behindSpace_append (hs : ' ' ∉ s) (t : List Char) : behindSpace (s ++ ' ' :: t) = t := by
  have hdrop : ∀ c ∈ s, decide (c ≠ ' ') = true := fun c hc =>
    decide_eq_true fun h => hs (h ▸ hc)
  rw [behindSpace, List.dropWhile_append_of_pos hdrop]
  rfl

/-- **What stands between two fields without spaces can be read off**, with all its spaces. -/
theorem middle_append (hs : ' ' ∉ s) (ht : ' ' ∉ t) (w : List Char) :
    middle (s ++ ' ' :: (w ++ ' ' :: t)) = w := by
  have hreverse : (w ++ ' ' :: t).reverse = t.reverse ++ ' ' :: w.reverse := by simp
  rw [middle, behindSpace_append hs, hreverse,
    behindSpace_append (List.mem_reverse.not.mpr ht), List.reverse_reverse]

/-! ## The fields of a token -/

theorem TokenKind.not_mem_name {c : Char} (hc : (c.isUpper || c == '_') = false) (k : TokenKind) :
    c ∉ k.name.toList :=
  (SyntaxKind.token k).not_mem_name hc

namespace Token

theorem IsValued.not_mem_valueText (h : token.IsValued) {c : Char} (hc : c.isAlphanum = false)
    (hs : c ≠ '-') : c ∉ token.valueText.toList := by
  unfold valueText
  split
  · next v hv => exact (h v hv).not_mem_text hc hs
  · exact fun hmem => Bool.false_ne_true
      (hc.symm.trans (List.all_eq_true.mp (by decide : "null".toList.all Char.isAlphanum) c hmem))

theorem toList_listingBy (e : List Char → List Char) (t : Token) : (t.listingBy e).toList =
    t.kind.name.toList ++ ' ' :: (e t.literal.toList ++ ' ' :: t.valueText.toList) := by
  simp [listingBy]

theorem IsValued.not_mem_listingBy (h : token.IsValued) (he : ∀ s, Text.IsEscaped s (e s)) :
    '\n' ∉ (token.listingBy e).toList := by
  have hname := token.kind.not_mem_name (c := '\n') (by decide)
  have hvalue := h.not_mem_valueText (c := '\n') rfl (by decide)
  have hliteral := (he token.literal.toList).not_mem
  rw [toList_listingBy]
  simp [hname, hvalue, hliteral]

theorem IsValued.unescape_middle (h : token.IsValued) (he : ∀ s, Text.IsEscaped s (e s)) :
    Text.unescape (middle (token.listingBy e).toList) = token.literal.toList := by
  rw [toList_listingBy, middle_append (token.kind.not_mem_name (by decide))
    (h.not_mem_valueText rfl (by decide)), (he _).unescape_eq]

end Token

/-! ## The tokens of a line -/

theorem Lexer.isValued_of_mem_drain (h : token ∈ (ofString line).drain.1.toList) :
    token.IsValued := by
  rw [toList_drain] at h
  rcases List.mem_append.mp h with h | h
  · obtain ⟨x, -, rfl⟩ := List.mem_map.mp h
    exact Token.isValued_token x.1 x.2
  · rw [List.mem_singleton.mp h]
    exact fun v hv => absurd hv (Option.not_mem_none v)

theorem Lexer.flatMap_literal_drain (line : String) :
    ((ofString line).drain.1.toList.flatMap fun t => t.literal.toList) = line.toList := by
  rw [toList_drain, List.flatMap_append, Lexeme.flatMap_literal, Lexeme.map_lexeme_placed,
    Lexeme.flatMap_text_cut]
  exact List.append_nil _

theorem not_mem_of_listed (he : ∀ s, Text.IsEscaped s (e s)) (line : String) :
    ∀ l ∈ (Lexer.ofString line).drain.1.toList.map (Token.listingBy e), '\n' ∉ l.toList := by
  intro l hl
  obtain ⟨t, ht, rfl⟩ := List.mem_map.mp hl
  exact (Lexer.isValued_of_mem_drain ht).not_mem_listingBy he

theorem count_listingBy (he : ∀ s, Text.IsEscaped s (e s)) (line : String) :
    (listingBy e line).toList.count '\n' = (Lexer.ofString line).drain.1.size := by
  rw [listingBy, Text.Lines.count_join (not_mem_of_listed he line), List.length_map,
    Array.length_toList]

/-- **A line can be read off its listing.** -/
theorem unlisted_listingBy (he : ∀ s, Text.IsEscaped s (e s)) (line : String) :
    unlisted (listingBy e line) = line := by
  have hliterals : ((Lexer.ofString line).drain.1.toList.flatMap fun t =>
      Text.unescape (middle (t.listingBy e).toList)) = line.toList := by
    rw [List.flatMap_congr fun t ht => (Lexer.isValued_of_mem_drain ht).unescape_middle he,
      Lexer.flatMap_literal_drain]
  rw [unlisted, listingBy, Text.Lines.splitOn_join (not_mem_of_listed he line), List.flatMap_append,
    List.flatMap_map, List.flatMap_map, hliterals]
  exact (congrArg String.ofList (List.append_nil _)).trans String.ofList_toList

/-- **A listing is unambiguous.** What the program writes for the tokens of a line has as many line
feeds as there are tokens, and the line can be read off it, so no two lines have the same listing.
It does not matter which characters are found fit to be shown, or where: the same holds if the
characters of each token are written in any of the ways that there are. -/
theorem listing_unambiguous :
    (∀ line input,
      ((Command.tokenize line).run input).output.toList.count '\n' =
        (Lexer.ofString line).drain.1.size ∧
      unlisted ((Command.tokenize line).run input).output = line) ∧
    (∀ line line' input input', ((Command.tokenize line).run input).output =
      ((Command.tokenize line').run input').output → line = line') ∧
    ∀ e : List Char → List Char, (∀ s, Text.IsEscaped s (e s)) →
      (∀ line, (listingBy e line).toList.count '\n' = (Lexer.ofString line).drain.1.size ∧
        unlisted (listingBy e line) = line) ∧
      ∀ line line', listingBy e line = listingBy e line' → line = line' := by
  have hinjective {e : List Char → List Char} (he : ∀ s, Text.IsEscaped s (e s))
      (line line' : String) (h : listingBy e line = listingBy e line') : line = line' := by
    rw [← unlisted_listingBy he line, h, unlisted_listingBy he]
  refine ⟨fun line input => ?program, fun line line' _ _ h => ?_, fun e he => ⟨fun line => ?_, ?_⟩⟩
  case program =>
    have he := Text.isEscaped_escape
    rw [Command.output_tokenize]
    exact ⟨count_listingBy he line, unlisted_listingBy he line⟩
  · exact hinjective Text.isEscaped_escape line line' h
  · exact ⟨count_listingBy he line, unlisted_listingBy he line⟩
  · exact hinjective he

example : listingBy Text.escape "1 \n" = "NUMBER 1 1\nWHITESPACE  \\n null\nEOF  null\n" := by
  decide +kernel

/-- A line feed and a combining mark, listed by the program, and with code points for all characters
without a letter of their own. -/
theorem listing_unambiguous_mark :
    unlisted ((Command.tokenize "\n\u0301").run []).output = "\n\u0301" ∧
    (listingBy (List.flatMap Text.hiddenChar) "\n\u0301").toList.count '\n' =
      (Lexer.ofString "\n\u0301").drain.1.size ∧
    (Lexer.ofString "\n\u0301").drain.1.size = 3 ∧
    unlisted (listingBy (List.flatMap Text.hiddenChar) "\n\u0301") = "\n\u0301" := by
  obtain ⟨hlisted, -, hgeneral⟩ := listing_unambiguous
  obtain ⟨hhidden, -⟩ := hgeneral (List.flatMap Text.hiddenChar)
    (Text.isEscaped_flatMap Text.form_hiddenChar)
  obtain ⟨hcount, hread⟩ := hhidden "\n\u0301"
  exact ⟨(hlisted "\n\u0301" []).2, hcount, by decide +kernel, hread⟩

end Reckoner
