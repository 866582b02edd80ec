import Reckoner.Proofs.Expression.Columns
import Reckoner.Proofs.Expression.Series

/-!
# The tree behind an outline

An outline shows everything of a tree but the places of its tokens and how they are written.

* `SyntaxNode.preorder`: depth, kind and text of the value of each node.
* `Expression.map_shown_eq_of_entries`: an expression ends where its kinds say, so no preorder goes
  on as another one.
* `SyntaxNode.preorder_eq_of_outline_eq`: what can be read off an outline.
* `Parser.Walk.mem`: every leaf of what is read is a piece of the line or takes the place of one;
  `Token.IsValued.unwritten_eq`: so its value can be read off its kind and the text of the value.
* **`outline_determines_tree`**: two trees have the same outline if and only if they have the same
  preorder.
-/

namespace Reckoner

open Reckoner.Parser

/-! ## What is shown of a token -/

/-- The token as it is shown: its kind, and the text of its value if it has one. -/
def Token.shown (t : Token) : Token :=
  { kind := t.kind, position := 0, literal := "", value := (t.value.map Value.text).map .string }

/-- The token without its place and without how it is written. -/
def Token.unwritten (t : Token) : Token :=
  { t with position := 0, literal := "" }

namespace SyntaxNode

/-- What is shown of a node by itself. -/
def entry (n : SyntaxNode) : SyntaxKind × Option String :=
  (n.kind, n.valueText?)

/-- The nodes in preorder: the depth of each, its kind, and the text of its value if it has one. -/
def preorder (n : SyntaxNode) : List (Nat × SyntaxKind × Option String) :=
  n.visits.map fun v => (v.1.length, v.2.entry)

/-- No value of the tree is shown on several lines. -/
def OneLine (n : SyntaxNode) : Prop :=
  ∀ t ∈ n.leaves, ∀ v ∈ t.value, '\n' ∉ v.text.toList

@[simp] theorem map_entry_fromParent (i : Nat) (visits : List (List Nat × SyntaxNode)) :
    (fromParent i visits).map (fun v => v.2.entry) = visits.map fun v => v.2.entry := by
  rw [fromParent, List.map_map]
  rfl

theorem entry_expression (e : Expression) : (expression e).entry = (.expression e.form, none) :=
  rfl

theorem shown_eq_of_entry {s t : Token} (h : (token s).entry = (token t).entry) :
    s.shown = t.shown := by
  obtain ⟨hkind, hvalue⟩ := Prod.mk.inj h
  have hvalues : s.value.map Value.text = t.value.map Value.text := hvalue
  rw [Token.shown, Token.shown, SyntaxKind.token.inj hkind, hvalues]

end SyntaxNode

open SyntaxNode

theorem Token.label_shown (t : Token) : t.shown.label = t.label := by
  cases hv : t.value <;> simp [label, shown, Value.text, hv]

namespace Expression

variable {e e' : Expression} {f g : Token → Token}

/-! ## Trees that are shown in the same way -/

/-- What is shown of the nodes in preorder. -/
def entries (e : Expression) : List (SyntaxKind × Option String) :=
  e.visits.map fun v => v.2.entry

theorem entries_literal (t : Token) :
    (literal t).entries = [(.expression .literal, none), (token t).entry] :=
  rfl

theorem entries_unary (op : Token) (e : Expression) :
    (unary op e).entries = (.expression .unary, none) :: (token op).entry :: e.entries := by
  simp [entries, visits, entry_expression, form]

theorem entries_binary (l : Expression) (op : Token) (r : Expression) :
    (binary l op r).entries =
      (.expression .binary, none) :: (l.entries ++ (token op).entry :: r.entries) := by
  simp [entries, visits, entry_expression, form]

theorem entries_parenthesized (o : Token) (e : Expression) (c : Token) :
    (parenthesized o e c).entries =
      (.expression .parenthesized, none) :: (token o).entry :: (e.entries ++ [(token c).entry]) := by
  simp [entries, visits, entry_expression, form]

theorem exists_entries_eq (e : Expression) :
    ∃ more, e.entries = (.expression e.form, none) :: more := by
  cases e with
  | literal t => exact ⟨_, entries_literal t⟩
  | unary op e => exact ⟨_, entries_unary op e⟩
  | binary l op r => exact ⟨_, entries_binary l op r⟩
  | parenthesized o e c => exact ⟨_, entries_parenthesized o e c⟩

theorem form_eq_of_entries {s s' : List (SyntaxKind × Option String)}
    (h : e.entries ++ s = e'.entries ++ s') : e.form = e'.form := by
  obtain ⟨more, he⟩ := e.exists_entries_eq
  obtain ⟨more', he'⟩ := e'.exists_entries_eq
  rw [he, he'] at h
  exact SyntaxKind.expression.inj (Prod.mk.inj (List.cons.inj h).1).1

/-- **No preorder goes on as another one**: each form has its number of children, so where a tree
ends can be read off its preorder, and all that is shown of it. -/
theorem map_shown_eq_of_entries {s s' : List (SyntaxKind × Option String)}
    (h : e.entries ++ s = e'.entries ++ s') :
    e.map Token.shown = e'.map Token.shown ∧ s = s' := by
  induction e generalizing e' s s' with
  | literal t =>
    cases e' with
    | literal t' =>
      simp only [entries_literal, List.cons_append, List.nil_append, List.cons.injEq] at h
      obtain ⟨-, ht, hs⟩ := h
      exact ⟨congrArg literal (shown_eq_of_entry ht), hs⟩
    | _ => cases form_eq_of_entries h
  | unary op e ih =>
    cases e' with
    | unary op' e' =>
      simp only [entries_unary, List.cons_append, List.cons.injEq] at h
      obtain ⟨-, hop, hrest⟩ := h
      obtain ⟨he, hs⟩ := ih hrest
      exact ⟨by rw [map, map, shown_eq_of_entry hop, he], hs⟩
    | _ => cases form_eq_of_entries h
  | binary l op r ihl ihr =>
    cases e' with
    | binary l' op' r' =>
      simp only [entries_binary, List.cons_append, List.append_assoc, List.cons.injEq] at h
      obtain ⟨hl, hrest⟩ := ihl h.2
      obtain ⟨hop, hrest⟩ := List.cons.inj hrest
      obtain ⟨hr, hs⟩ := ihr hrest
      exact ⟨by rw [map, map, hl, shown_eq_of_entry hop, hr], hs⟩
    | _ => cases form_eq_of_entries h
  | parenthesized o e c ih =>
    cases e' with
    | parenthesized o' e' c' =>
      simp only [entries_parenthesized, List.cons_append, List.append_assoc, List.nil_append,
        List.cons.injEq] at h
      obtain ⟨-, ho, hrest⟩ := h
      obtain ⟨he, hrest⟩ := ih hrest
      obtain ⟨hc, hs⟩ := List.cons.inj hrest
      exact ⟨by rw [map, map, shown_eq_of_entry ho, he, shown_eq_of_entry hc], hs⟩
    | _ => cases form_eq_of_entries h

theorem map_eq_map (h : e.map f = e'.map f)
    (hfg : ∀ s ∈ e.leaves, ∀ t ∈ e'.leaves, f s = f t → g s = g t) : e.map g = e'.map g := by
  induction e generalizing e' with
  | literal s =>
    cases e' with
    | literal t =>
      exact congrArg literal (hfg s List.mem_cons_self t List.mem_cons_self (literal.inj h))
    | _ => cases h
  | unary op e ih =>
    cases e' with
    | unary op' e' =>
      obtain ⟨hop, he⟩ := unary.inj h
      have hop' := hfg op List.mem_cons_self op' List.mem_cons_self hop
      have he' := ih he fun s hs t ht =>
        hfg s (List.mem_cons_of_mem _ hs) t (List.mem_cons_of_mem _ ht)
      rw [map, map, hop', he']
    | _ => cases h
  | binary l op r ihl ihr =>
    cases e' with
    | binary l' op' r' =>
      obtain ⟨hl, hop, hr⟩ := binary.inj h
      simp only [leaves, List.mem_append, List.mem_cons] at hfg
      have hl' := ihl hl fun s hs t ht => hfg s (.inl hs) t (.inl ht)
      have hop' := hfg op (.inr (.inl rfl)) op' (.inr (.inl rfl)) hop
      have hr' := ihr hr fun s hs t ht => hfg s (.inr (.inr hs)) t (.inr (.inr ht))
      rw [map, map, hl', hop', hr']
    | _ => cases h
  | parenthesized o e c ih =>
    cases e' with
    | parenthesized o' e' c' =>
      obtain ⟨ho, he, hc⟩ := parenthesized.inj h
      simp only [leaves, List.mem_append, List.mem_cons] at hfg
      have ho' := hfg o (.inl (.inl rfl)) o' (.inl (.inl rfl)) ho
      have he' := ih he fun s hs t ht => hfg s (.inl (.inr hs)) t (.inl (.inr ht))
      have hc' := hfg c (.inr (.inl rfl)) c' (.inr (.inl rfl)) hc
      rw [map, map, ho', he', hc']
    | _ => cases h

theorem lines_map (hf : ∀ t, (f t).label = t.label) (lead : String) (last : Bool)
    (e : Expression) : (e.map f).lines lead last = e.lines lead last := by
  have htoken (lead : String) (last : Bool) (t : Token) : (f t).line lead last = t.line lead last :=
    congrArg (Outline.line lead last) (hf t)
  induction e generalizing lead last with
  | literal t => simp [map, lines, htoken]
  | unary op e ih => simp [map, lines, htoken, ih]
  | binary l op r ihl ihr => simp [map, lines, htoken, ihl, ihr]
  | parenthesized o e c ih => simp [map, lines, htoken, ih]

end Expression

/-! ## Outlines and preorders -/

namespace SyntaxNode

variable {m n : SyntaxNode} {p : List Nat}

theorem outline_eq_join (n : SyntaxNode) :
    n.outline = Text.Lines.join (n.visits.map fun v => n.lineAt v.1 v.2) := by
  have hlines := lines_visits (show n.at? [] = some n from rfl)
  rw [outline_eq]
  exact congrArg Text.Lines.join hlines

theorem OneLine.not_mem_label (h : n.OneLine) (hm : n.at? p = some m) : '\n' ∉ m.label.toList := by
  have hname : '\n' ∉ m.kind.name.toList := m.kind.not_mem_name (by decide)
  cases hv : m.valueText? with
  | none => rwa [label_of_none hv]
  | some v =>
    have hvalue : '\n' ∉ v.toList := by
      cases m with
      | expression e => cases hv
      | token t =>
        obtain ⟨w, hw, rfl⟩ := Option.map_eq_some_iff.mp hv
        exact h t (leaves_subset_of_at? hm List.mem_cons_self) w hw
    rw [toList_label_of_some hv]
    simp [hname, hvalue]

theorem not_mem_lead (root : SyntaxNode) (q p : List Nat) : '\n' ∉ (root.lead q p).toList := by
  induction p generalizing q with
  | nil => simp [lead]
  | cons i p ih =>
    have hbelow (last : Bool) : '\n' ∉ (Outline.below last).toList := by cases last <;> decide
    rw [lead, String.toList_append, List.mem_append]
    exact not_or.mpr ⟨hbelow _, ih _⟩

theorem OneLine.not_mem_lineAt (h : n.OneLine) (hm : n.at? p = some m) :
    '\n' ∉ (n.lineAt p m).toList := by
  have hbranch (last : Bool) : '\n' ∉ (Outline.branch last).toList := by cases last <;> decide
  rw [toList_lineAt, List.mem_append, List.mem_append]
  exact not_or.mpr ⟨n.not_mem_lead [] p, not_or.mpr ⟨hbranch _, h.not_mem_label hm⟩⟩

theorem preorder_eq_of_outline_eq (hm : m.OneLine) (hn : n.OneLine) (h : m.outline = n.outline) :
    m.preorder = n.preorder := by
  rw [outline_eq_join, outline_eq_join] at h
  have hlines := Text.Lines.join_injective
    (List.forall_mem_map.mpr fun v hv => hm.not_mem_lineAt (mem_visits.mp hv))
    (List.forall_mem_map.mpr fun v hv => hn.not_mem_lineAt (mem_visits.mp hv)) h
  rw [← List.forall₂_eq_eq_eq, List.forall₂_map_left_iff, List.forall₂_map_right_iff] at hlines
  rw [preorder, preorder, ← List.forall₂_eq_eq_eq, List.forall₂_map_left_iff,
    List.forall₂_map_right_iff]
  refine hlines.imp fun v w hvw => ?_
  obtain ⟨hlength, hlabel⟩ := eq_of_lineAt_eq hvw
  obtain ⟨hkind, hvalue⟩ := eq_of_label_eq hlabel
  rw [hlength, entry, entry, hkind, hvalue]

theorem map_snd_preorder (n : SyntaxNode) :
    n.preorder.map Prod.snd = n.visits.map fun v => v.2.entry := by
  rw [preorder, List.map_map]
  rfl

theorem map_shown_eq_of_preorder {e e' : Expression}
    (h : (expression e).preorder = (expression e').preorder) :
    e.map Token.shown = e'.map Token.shown := by
  have hentries : e.entries = e'.entries := by
    have := congrArg (List.map Prod.snd) h
    rwa [map_snd_preorder, map_snd_preorder] at this
  exact (Expression.map_shown_eq_of_entries (congrArg (· ++ []) hentries)).1

theorem outline_eq_of_preorder_eq (h : m.preorder = n.preorder) : m.outline = n.outline := by
  have hentries := congrArg (List.map Prod.snd) h
  rw [map_snd_preorder, map_snd_preorder, visits_eq, visits_eq, List.map_cons,
    List.map_cons] at hentries
  have hentry : m.entry = n.entry := (List.cons.inj hentries).1
  cases m with
  | token s =>
    cases n with
    | token t =>
      have hlabel : s.label = t.label := by
        rw [← s.label_shown, shown_eq_of_entry hentry, t.label_shown]
      rw [outline, outline, Token.outline, Token.outline, Token.line, Token.line, hlabel]
    | expression e => cases (Prod.mk.inj hentry).1
  | expression e =>
    cases n with
    | token t => cases (Prod.mk.inj hentry).1
    | expression e' =>
      rw [outline, outline, Expression.outline, Expression.outline,
        ← Expression.lines_map Token.label_shown, map_shown_eq_of_preorder h,
        Expression.lines_map Token.label_shown]

end SyntaxNode

/-! ## Trees that were read -/

/-- A piece of the kind can have the value: a number an integer, and each word its truth value. -/
inductive TokenKind.Denotes : TokenKind → Value → Prop
  | number (n : Int32) : Denotes .number (.integer n)
  | trueWord : Denotes .trueWord (.boolean true)
  | falseWord : Denotes .falseWord (.boolean false)

namespace TokenKind.Denotes

variable {k : TokenKind} {v w : Value}

theorem not_mem_text (h : k.Denotes v) {c : Char} (hc : c.isAlphanum = false) (hs : c ≠ '-') :
    c ∉ v.text.toList := by
  have hdigit : c.isDigit = false := (Bool.or_eq_false_iff.mp hc).2
  have hword {s : String} (hclass : s.toList.all Char.isAlphanum = true) : c ∉ s.toList :=
    fun hmem => Bool.false_ne_true (hc.symm.trans (List.all_eq_true.mp hclass c hmem))
  cases h with
  | number n => exact Decimal.not_mem_integer hdigit hs _
  | trueWord => exact hword (by decide)
  | falseWord => exact hword (by decide)

/-- **A value can be read off its text and the kind of its token.** -/
theorem eq_of_text_eq (h : k.Denotes v) (h' : k.Denotes w) (htext : v.text = w.text) : v = w := by
  cases h with
  | number n =>
    cases h' with
    | number n' =>
      have hint := Decimal.integer_injective htext
      exact congrArg Value.integer (Int32.toInt_inj.mp hint)
  | trueWord =>
    cases h'
    rfl
  | falseWord =>
    cases h'
    rfl

end TokenKind.Denotes

namespace Token

variable {s t : Token}

/-- The token has no value but one that pieces of its kind can have. -/
def IsValued (t : Token) : Prop :=
  ∀ v ∈ t.value, t.kind.Denotes v

theorem isValued_token (x : Lexeme) (position : Nat) : (x.token position).IsValued := by
  intro v hv
  unfold Lexeme.token Lexeme.value? at hv ⊢
  split at hv
  · next hk =>
    obtain rfl := Option.some.inj hv
    exact hk ▸ .number _
  · next hk =>
    obtain rfl := Option.some.inj hv
    exact hk ▸ .trueWord
  · next hk =>
    obtain rfl := Option.some.inj hv
    exact hk ▸ .falseWord
  · cases hv

theorem IsPlaceholder.isValued (h : t.IsPlaceholder) : t.IsValued := by
  intro v hv
  rw [h] at hv
  cases hv

/-- **What a token denotes can be read off what is shown of it.** -/
theorem IsValued.unwritten_eq (hs : s.IsValued) (ht : t.IsValued) (h : s.shown = t.shown) :
    s.unwritten = t.unwritten := by
  have hkind : s.shown.kind = t.shown.kind := congrArg Token.kind h
  change s.kind = t.kind at hkind
  have htext : s.value.map Value.text = t.value.map Value.text :=
    Option.map_injective (fun _ _ => Value.string.inj) (congrArg Token.value h)
  have hvalue : s.value = t.value := by
    cases hv : s.value with
    | none =>
      rw [hv, Option.map_none, eq_comm, Option.map_eq_none_iff] at htext
      exact htext.symm
    | some v =>
      rw [hv, Option.map_some, eq_comm, Option.map_eq_some_iff] at htext
      obtain ⟨w, hw, hwv⟩ := htext
      have hdenotes : s.kind.Denotes w := hkind ▸ ht w hw
      rw [hw, (hs v hv).eq_of_text_eq hdenotes hwv.symm]
  rw [unwritten, unwritten, hkind, hvalue]

end Token

namespace ParsedSeries

variable {line : String} {minimums : List Nat} {limit : Option Nat} {e : Expression}

theorem isValued_of_mem (he : e ∈ (ofString line minimums limit).roots) {t : Token}
    (ht : t ∈ e.leaves) : t.IsValued := by
  have hwalk := walk_series limit (minimums ++ [0]) (Parser.ofString line)
  rw [← roots_eq] at hwalk
  rcases hwalk.mem (List.mem_flatMap.mpr ⟨e, he, ht⟩) with hmem | hplaceholder
  · obtain ⟨⟨x, position⟩, -, rfl⟩ := exists_piece hmem
    exact Token.isValued_token x position
  · exact hplaceholder.isValued

theorem oneLine_of_mem (he : e ∈ (ofString line minimums limit).roots) :
    (SyntaxNode.expression e).OneLine :=
  fun _ ht v hv => (isValued_of_mem he ht v hv).not_mem_text rfl (by decide)

end ParsedSeries

namespace ParsedLine

variable {line line' : String}

/-- **Lines whose trees are drawn in the same way** have the same tree, up to where its tokens stand
and how they are written. -/
theorem map_unwritten_eq (h : (ofString line).root.outline = (ofString line').root.outline) :
    (ofString line).root.map Token.unwritten = (ofString line').root.map Token.unwritten := by
  have hpreorder := SyntaxNode.preorder_eq_of_outline_eq
    (ParsedSeries.oneLine_of_mem (root_mem_roots line))
    (ParsedSeries.oneLine_of_mem (root_mem_roots line')) h
  refine Expression.map_eq_map (SyntaxNode.map_shown_eq_of_preorder hpreorder) fun s hs t ht => ?_
  have hs := ParsedSeries.isValued_of_mem (root_mem_roots line) hs
  have ht := ParsedSeries.isValued_of_mem (root_mem_roots line') ht
  exact hs.unwritten_eq ht

theorem unwritten_ending (line : String) : (ofString line).ending.unwritten = .ending 0 := by
  rw [show (ofString line).ending = .ending _ from
    (ParsedSeries.ends line [] (some nestingLimit)).ending_eq]
  rfl

end ParsedLine

/-- **The outline determines the tree.** The outlines of two trees whose values are shown on one line
are equal if and only if their nodes in preorder have the same depths, the same kinds and the same
texts of values. An outline has one line for each node, in preorder, which is the order of addresses
and of `Expression.nodes`. In the line of a node at depth `d` the branch starts in column `4 * d`, and
it bends exactly for the root and for a last child; in the four columns from `4 * k` on, for each `k`
below `d`, a way down is drawn if the node above at depth `k` is followed by another child of its
parent, and nothing otherwise. All trees that are read show their values on one line, and if those of
two lines have the same outline, they are equal up to the places of their tokens and how these are
written. -/
theorem outline_determines_tree :
    (∀ m n : SyntaxNode, m.OneLine → n.OneLine →
      (m.outline = n.outline ↔ m.preorder = n.preorder)) ∧
    (∀ n : SyntaxNode, n.IsPreorder n.visits ∧ ∃ lines : List String,
      n.outline = Text.Lines.join lines ∧ (n.OneLine → ∀ l ∈ lines, '\n' ∉ l.toList) ∧
      List.Forall₂ (fun v l => n.ShowsAt v.1 v.2 l) n.visits lines) ∧
    (∀ e : Expression,
      e.nodes 0 = (SyntaxNode.expression e).visits.map fun v => (v.1.length, v.2.top)) ∧
    (∀ (line : String) (minimums : List Nat), ∀ e ∈ (ParsedSeries.ofString line minimums).roots,
      (SyntaxNode.expression e).OneLine) ∧
    ∀ line line' : String,
      (ParsedLine.ofString line).root.outline = (ParsedLine.ofString line').root.outline →
        (ParsedLine.ofString line).root.map Token.unwritten =
          (ParsedLine.ofString line').root.map Token.unwritten ∧
        (ParsedLine.ofString line).ending.unwritten =
          (ParsedLine.ofString line').ending.unwritten := by
  refine ⟨fun m n hm hn => ?decoded, fun n => ⟨n.isPreorder_visits, ?drawn⟩, fun e => ?nodes,
    fun line minimums e he => ParsedSeries.oneLine_of_mem he, fun line line' h => ?read⟩
  case decoded =>
    exact ⟨SyntaxNode.preorder_eq_of_outline_eq hm hn, SyntaxNode.outline_eq_of_preorder_eq⟩
  case drawn =>
    refine ⟨_, n.outline_eq_join, fun h => ?_, ?_⟩
    · exact List.forall_mem_map.mpr fun v hv => h.not_mem_lineAt (mem_visits.mp hv)
    · rw [List.forall₂_map_right_iff, List.forall₂_same]
      exact fun v _ => n.showsAt_lineAt v.1 v.2
  case nodes =>
    rw [e.nodes_eq]
    simp only [Nat.zero_add, SyntaxNode.visits]
  case read =>
    refine ⟨ParsedLine.map_unwritten_eq h, ?_⟩
    rw [ParsedLine.unwritten_ending, ParsedLine.unwritten_ending]

/-- A zero in front of a number and blanks do not show. -/
theorem outline_determines_tree_zero :
    (ParsedLine.ofString "01 +\t2").root.map Token.unwritten =
      (ParsedLine.ofString "1+2").root.map Token.unwritten ∧
    (expression (ParsedLine.ofString "01 +\t2").root).preorder =
      (expression (ParsedLine.ofString "1+2").root).preorder := by
  obtain ⟨hdecoded, -, -, hone, hread⟩ := outline_determines_tree
  have houtline : (ParsedLine.ofString "01 +\t2").root.outline =
      (ParsedLine.ofString "1+2").root.outline := by decide +kernel
  refine ⟨(hread _ _ houtline).1, (hdecoded _ _ ?_ ?_).mp houtline⟩
  · exact hone _ [] _ (ParsedLine.root_mem_roots _)
  · exact hone _ [] _ (ParsedLine.root_mem_roots _)

/-- Beside the children of the left operand, the way goes on to the operator. -/
example : (ParsedLine.ofString "-1 + 2").root.outline =
    "└──BINARY_EXPRESSION\n" ++
    "    ├──UNARY_EXPRESSION\n" ++
    "    │   ├──MINUS\n" ++
    "    │   └──LITERAL_EXPRESSION\n" ++
    "    │       └──NUMBER 1\n" ++
    "    ├──PLUS\n" ++
    "    └──LITERAL_EXPRESSION\n" ++
    "        └──NUMBER 2\n" := by
  decide +kernel

end Reckoner
