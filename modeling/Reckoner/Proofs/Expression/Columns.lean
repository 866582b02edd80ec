import Mathlib.Data.List.Nodup
import Reckoner.Proofs.Expression.Addresses
import Reckoner.Proofs.Texts

/-!
# The columns of an outline

Each node has a line of its own. In front of its label stands a branch, and in front of that four
characters for each node above it, which say whether that node is followed by another child of its
parent.

* `SyntaxNode.isFollowed`: whether there is another child behind the node at an address.
* `SyntaxNode.lines_eq`: the lines of a node are its own line and those of its children.
* `SyntaxNode.ShowsAt`: what stands in which column of the line of a node.
* **`SyntaxNode.lines_visits`**: the lines of a tree are those of its nodes in preorder;
  **`SyntaxNode.showsAt_lineAt`**: the columns of these lines.
* **`SyntaxNode.eq_of_lineAt_eq`**: the depth of a node and its label can be read off its line.
-/

namespace Reckoner

/-! ## Labels -/

namespace SyntaxKind

/-- Every kind. -/
def all : List SyntaxKind :=
  TokenKind.all.map token ++
    [expression .literal, expression .unary, expression .binary, expression .parenthesized]

theorem mem_all (k : SyntaxKind) : k ∈ all := by
  cases k with
  | token k => cases k <;> decide
  | expression f => cases f <;> decide

theorem name_injective {k k' : SyntaxKind} (h : k.name = k'.name) : k = k' := by
  have hnames : (all.map name).Nodup := by decide
  exact List.inj_on_of_nodup_map hnames (mem_all k) (mem_all k') h

theorem all_name (k : SyntaxKind) : k.name.toList.all (fun c => c.isUpper || c == '_') = true := by
  cases k with
  | token k => cases k <;> decide
  | expression f => cases f <;> decide

theorem not_mem_name {c : Char} (hc : (c.isUpper || c == '_') = false) (k : SyntaxKind) :
    c ∉ k.name.toList := by
  intro hmem
  have hname := List.all_eq_true.mp k.all_name c hmem
  exact Bool.false_ne_true (hc.symm.trans hname)

end SyntaxKind

namespace SyntaxNode

variable {m n root : SyntaxNode} {p q : List Nat}

/-- The label of a node: the name of its kind, and the text of its value if it has one. -/
def label (n : SyntaxNode) : String :=
  match n.valueText? with
  | some v => n.kind.name ++ " " ++ v
  | none => n.kind.name

theorem label_token (t : Token) : (token t).label = t.label := by
  cases hv : t.value <;> simp [label, Token.label, valueText?, kind, SyntaxKind.name, hv]

theorem label_of_none (h : n.valueText? = none) : n.label = n.kind.name := by
  simp [label, h]

theorem toList_label_of_some {v : String} (h : n.valueText? = some v) :
    n.label.toList = n.kind.name.toList ++ ' ' :: v.toList := by
  simp [label, h]

theorem label_ne {w : String} (hm : m.valueText? = none) (hn : n.valueText? = some w) :
    m.label ≠ n.label := by
  intro h
  have hmem : ' ' ∈ m.kind.name.toList := by
    rw [← label_of_none hm, h, toList_label_of_some hn]
    exact List.mem_append_right _ List.mem_cons_self
  exact m.kind.not_mem_name (by decide) hmem

/-- **The kind of a node and the text of its value can be read off its label.** -/
theorem eq_of_label_eq (h : m.label = n.label) :
    m.kind = n.kind ∧ m.valueText? = n.valueText? := by
  cases hm : m.valueText? with
  | none =>
    cases hn : n.valueText? with
    | none =>
      rw [label_of_none hm, label_of_none hn] at h
      exact ⟨SyntaxKind.name_injective h, rfl⟩
    | some w => exact absurd h (label_ne hm hn)
  | some v =>
    cases hn : n.valueText? with
    | none => exact absurd h.symm (label_ne hn hm)
    | some w =>
      have hchars := congrArg String.toList h
      rw [toList_label_of_some hm, toList_label_of_some hn] at hchars
      obtain ⟨hkind, -, hvalue⟩ := Text.append_cons_inj hchars (n.kind.not_mem_name (by decide))
        (m.kind.not_mem_name (by decide))
      exact ⟨SyntaxKind.name_injective (String.toList_injective hkind),
        congrArg some (String.toList_injective hvalue)⟩

/-! ## Lines -/

/-- The lines of a node behind `lead`; `last` says that it is the last child. -/
def lines (lead : String) (last : Bool) : SyntaxNode → List String
  | token t => [t.line lead last]
  | expression e => e.lines lead last

/-- The outline of a node. -/
def outline : SyntaxNode → String
  | token t => t.outline
  | expression e => e.outline

theorem outline_eq (n : SyntaxNode) : n.outline = Text.Lines.join (n.lines "" true) := by
  cases n <;> rfl

theorem lines_eq (lead : String) (last : Bool) (n : SyntaxNode) :
    n.lines lead last = Outline.line lead last n.label :: n.children.zipIdx.flatMap fun c =>
      c.1.lines (lead ++ Outline.below last) (c.2 + 1 == n.children.length) := by
  cases n with
  | token t => simp [lines, children, Token.line, label_token]
  | expression e => cases e <;> simp [lines, Expression.lines, children] <;> rfl

/-- There is another child behind the node at the address `p`. -/
def isFollowed (root : SyntaxNode) (p : List Nat) : Bool :=
  match p.getLast? with
  | none => false
  | some i => (root.at? (p.dropLast ++ [i + 1])).isSome

/-- What stands in front of the branch of a node for the nodes on the way `p` to it, which starts at
the address `q`. -/
def lead (root : SyntaxNode) (q : List Nat) : List Nat → String
  | [] => ""
  | i :: p => Outline.below (!root.isFollowed q) ++ root.lead (q ++ [i]) p

/-- The line of the node `m` at the address `p`. -/
def lineAt (root : SyntaxNode) (p : List Nat) (m : SyntaxNode) : String :=
  Outline.line (root.lead [] p) (!root.isFollowed p) m.label

theorem isFollowed_concat (h : root.at? q = some n) (i : Nat) :
    root.isFollowed (q ++ [i]) = decide (i + 1 < n.children.length) := by
  have hat : root.at? (q ++ [i + 1]) = n.children[i + 1]? := by
    rw [at?_append, h, Option.bind_some, at?]
    cases n.children[i + 1]? <;> rfl
  simp only [isFollowed, List.getLast?_concat, List.dropLast_concat, hat]
  rw [Bool.eq_iff_iff]
  simp

theorem lead_append (root : SyntaxNode) (o p q : List Nat) :
    root.lead o (p ++ q) = root.lead o p ++ root.lead (o ++ p) q := by
  induction p generalizing o with
  | nil => simp [lead]
  | cons i p ih => simp [lead, ih, String.append_assoc]

/-- **The lines of a tree are those of its nodes in preorder.** -/
theorem lines_visits (h : root.at? q = some n) :
    n.lines (root.lead [] q) (!root.isFollowed q) =
      n.visits.map fun v => root.lineAt (q ++ v.1) v.2 := by
  induction n using SyntaxNode.induction generalizing q with
  | node n ih =>
    rw [lines_eq, visits_eq, List.map_cons, List.append_nil, lineAt, List.map_flatMap]
    congr 1
    refine List.flatMap_congr fun c hc => ?_
    obtain ⟨c, i⟩ := c
    have hc : n.children[i]? = some c := List.mk_mem_zipIdx_iff_getElem?.mp hc
    have hat : root.at? (q ++ [i]) = some c := by
      rw [at?_append, h, Option.bind_some, at?, hc]
      rfl
    have hlead : root.lead [] (q ++ [i]) = root.lead [] q ++ Outline.below !root.isFollowed q := by
      rw [lead_append]
      simp [lead]
    have hlast : (!root.isFollowed (q ++ [i])) = (i + 1 == n.children.length) := by
      have hlt := (List.getElem?_eq_some_iff.mp hc).1
      rw [isFollowed_concat h, Bool.eq_iff_iff]
      simp
      omega
    have hlines := ih c (List.mem_of_getElem? hc) hat
    rw [hlead, hlast] at hlines
    rw [hlines, fromParent, List.map_map]
    exact List.map_congr_left fun v _ => by simp

/-! ## Columns -/

/-- `line` shows the node `m` at the address `p`: in the column to which the depth of the node leads
stands its branch, with the label behind it; and in front of it, for each node above it, whether that
node is followed by another child of its parent. -/
structure ShowsAt (root : SyntaxNode) (p : List Nat) (m : SyntaxNode) (line : String) : Prop where
  branch : line.toList.drop (4 * p.length) =
    (if root.isFollowed p then "├──" else "└──").toList ++ m.label.toList
  above : ∀ k < p.length, (line.toList.drop (4 * k)).take 4 =
    (if root.isFollowed (p.take k) then "│   " else "    ").toList

theorem length_below (last : Bool) : (Outline.below last).toList.length = 4 := by
  cases last <;> rfl

theorem length_lead (root : SyntaxNode) (q p : List Nat) :
    (root.lead q p).toList.length = 4 * p.length := by
  induction p generalizing q with
  | nil => rfl
  | cons i p ih =>
    rw [lead, String.toList_append, List.length_append, length_below, ih, List.length_cons]
    omega

theorem toList_lineAt (root : SyntaxNode) (p : List Nat) (m : SyntaxNode) :
    (root.lineAt p m).toList = (root.lead [] p).toList ++
      ((Outline.branch !root.isFollowed p).toList ++ m.label.toList) := by
  simp [lineAt, Outline.line]

theorem showsAt_lineAt (root : SyntaxNode) (p : List Nat) (m : SyntaxNode) :
    root.ShowsAt p m (root.lineAt p m) := by
  constructor
  case branch =>
    rw [toList_lineAt, List.drop_left' (length_lead root [] p)]
    cases root.isFollowed p <;> rfl
  case above =>
    intro k hk
    have hway : p = p.take k ++ p[k] :: p.drop (k + 1) := by
      rw [← List.drop_eq_getElem_cons hk, List.take_append_drop]
    have hlength : (root.lead [] (p.take k)).toList.length = 4 * k := by
      rw [length_lead, List.length_take_of_le (Nat.le_of_lt hk)]
    have hlead : root.lead [] p = root.lead [] (p.take k) ++
        (Outline.below (!root.isFollowed (p.take k)) ++
          root.lead (p.take k ++ [p[k]]) (p.drop (k + 1))) := by
      conv_lhs => rw [hway, lead_append, List.nil_append, lead]
    rw [toList_lineAt, hlead, String.toList_append, String.toList_append, List.append_assoc,
      List.append_assoc, List.drop_left' hlength, List.take_left' (length_below _)]
    cases root.isFollowed (p.take k) <;> rfl

/-! ## What can be read off a line -/

theorem length_branch (last : Bool) : (Outline.branch last).toList.length = 3 := by
  cases last <;> rfl

theorem below_append_ne_branch (last last' : Bool) (s t : List Char) :
    (Outline.below last).toList ++ s ≠ (Outline.branch last').toList ++ t := by
  cases last <;> cases last' <;> simp [Outline.below, Outline.branch]

theorem eq_of_lead_eq {root' : SyntaxNode} {q' p p' : List Nat} {last last' : Bool}
    {s s' : List Char}
    (h : (root.lead q p).toList ++ ((Outline.branch last).toList ++ s) =
      (root'.lead q' p').toList ++ ((Outline.branch last').toList ++ s')) :
    p.length = p'.length ∧ s = s' := by
  induction p generalizing q q' p' with
  | nil =>
    cases p' with
    | nil =>
      rw [lead, lead, String.toList_empty, List.nil_append, List.nil_append] at h
      exact ⟨rfl, (List.append_inj h (by rw [length_branch, length_branch])).2⟩
    | cons i p' =>
      rw [lead, lead, String.toList_append, List.append_assoc, String.toList_empty,
        List.nil_append] at h
      -- a branch starts with another character than what stands below one
      exact absurd h.symm (below_append_ne_branch _ _ _ _)
  | cons i p ih =>
    cases p' with
    | nil =>
      rw [lead, lead, String.toList_append, List.append_assoc, String.toList_empty,
        List.nil_append] at h
      exact absurd h (below_append_ne_branch _ _ _ _)
    | cons i' p' =>
      rw [lead, lead, String.toList_append, String.toList_append, List.append_assoc,
        List.append_assoc] at h
      obtain ⟨-, hrest⟩ := List.append_inj h ((length_below _).trans (length_below _).symm)
      obtain ⟨hlength, hs⟩ := ih hrest
      exact ⟨congrArg Nat.succ hlength, hs⟩

/-- **The depth of a node and its label can be read off its line.** -/
theorem eq_of_lineAt_eq {root' m' : SyntaxNode} {p p' : List Nat}
    (h : root.lineAt p m = root'.lineAt p' m') : p.length = p'.length ∧ m.label = m'.label := by
  have hchars := congrArg String.toList h
  rw [toList_lineAt, toList_lineAt] at hchars
  obtain ⟨hlength, hlabel⟩ := eq_of_lead_eq hchars
  exact ⟨hlength, String.toList_injective hlabel⟩

end SyntaxNode

end Reckoner
