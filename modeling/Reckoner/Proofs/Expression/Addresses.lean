import Reckoner.Expression.Outline

/-!
# Addresses

The nodes of a tree are its expressions and its tokens, and each of them has its children in their
order. The address of a node says, for each step on the way down to it, which child to go to. A tree in
preorder is its addresses in lexicographic order.

* `SyntaxNode.children`, `SyntaxNode.at?`: the children of a node, and the node at an address.
* `SyntaxNode.visits`: the nodes in preorder, each with its address; `SyntaxNode.mem_visits`,
  `SyntaxNode.pairwise_visits`: these are all addresses, in lexicographic order.
* `SyntaxNode.visits_eq`: a node is visited before what lies below its children.
* `Expression.nodes_eq`: the depth of a node is the length of its address.
-/

namespace Reckoner

/-- The kinds of nodes. -/
inductive SyntaxKind where
  | token (kind : TokenKind)
  | expression (form : Expression.Form)
deriving DecidableEq

/-- The name under which a kind is shown. -/
def SyntaxKind.name : SyntaxKind → String
  | token k => k.name
  | expression f => f.name

/-- A node of a tree: a token, or an expression with all that lies below it. -/
inductive SyntaxNode where
  | token (t : Token)
  | expression (e : Expression)

namespace SyntaxNode

/-- The kind of a node. -/
def kind : SyntaxNode → SyntaxKind
  | token t => .token t.kind
  | expression e => .expression e.form

/-- The text of the value of a node, which only a token can have. -/
def valueText? : SyntaxNode → Option String
  | token t => t.value.map Value.text
  | expression _ => none

/-- The children from left to right. -/
def children : SyntaxNode → List SyntaxNode
  | token _ => []
  | expression (.literal t) => [token t]
  | expression (.unary op e) => [token op, expression e]
  | expression (.binary l op r) => [expression l, token op, expression r]
  | expression (.parenthesized o e c) => [token o, expression e, token c]

/-- The node at an address: the way goes to the child of the first index, and on from there. -/
def at? : SyntaxNode → List Nat → Option SyntaxNode
  | n, [] => some n
  | n, i :: p => n.children[i]?.bind fun c => c.at? p

/-- The tokens of the tree from left to right. -/
def leaves : SyntaxNode → List Token
  | token t => [t]
  | expression e => e.leaves

/-- What is visited below the child with the index `i`, as seen from its parent. -/
def fromParent (i : Nat) (visits : List (List Nat × SyntaxNode)) : List (List Nat × SyntaxNode) :=
  visits.map fun v => (i :: v.1, v.2)

end SyntaxNode

open SyntaxNode

/-- The nodes of an expression in preorder, each with its address. -/
def Expression.visits : Expression → List (List Nat × SyntaxNode)
  | literal t => [([], .expression (literal t)), ([0], .token t)]
  | unary op e => ([], .expression (unary op e)) :: ([0], .token op) :: fromParent 1 e.visits
  | binary l op r =>
    ([], .expression (binary l op r)) :: fromParent 0 l.visits ++
      ([1], .token op) :: fromParent 2 r.visits
  | parenthesized o e c =>
    ([], .expression (parenthesized o e c)) :: ([0], .token o) :: fromParent 1 e.visits ++
      [([2], .token c)]

namespace SyntaxNode

/-- The nodes of a tree in preorder, each with its address. -/
def visits : SyntaxNode → List (List Nat × SyntaxNode)
  | token t => [([], token t)]
  | expression e => e.visits

/-! ## Children -/

/-- What a node inherits from its children holds of every node. -/
theorem induction {motive : SyntaxNode → Prop}
    (node : ∀ n, (∀ c ∈ n.children, motive c) → motive n) (n : SyntaxNode) : motive n := by
  have htoken (t : Token) : motive (token t) := node _ fun c hc => absurd hc List.not_mem_nil
  cases n with
  | token t => exact htoken t
  | expression e =>
    induction e with
    | literal t => exact node _ (by simp [children, htoken])
    | unary op e ih => exact node _ (by simp [children, htoken, ih])
    | binary l op r ihl ihr => exact node _ (by simp [children, htoken, ihl, ihr])
    | parenthesized o e c ih => exact node _ (by simp [children, htoken, ih])

theorem visits_eq (n : SyntaxNode) :
    n.visits = ([], n) :: n.children.zipIdx.flatMap fun c => fromParent c.2 c.1.visits := by
  cases n with
  | token t => rfl
  | expression e => cases e <;> simp [visits, Expression.visits, children, fromParent]

theorem leaves_subset_of_mem_children {c n : SyntaxNode} (h : c ∈ n.children) :
    c.leaves ⊆ n.leaves := by
  intro t ht
  cases n with
  | token s => exact absurd h List.not_mem_nil
  | expression e =>
    cases e with
    | literal s =>
      obtain rfl := List.mem_singleton.mp h
      exact ht
    | unary op e =>
      simp only [children, List.mem_cons, List.not_mem_nil, or_false] at h
      rcases h with rfl | rfl <;> simp_all [leaves, Expression.leaves]
    | binary l op r =>
      simp only [children, List.mem_cons, List.not_mem_nil, or_false] at h
      rcases h with rfl | rfl | rfl <;> simp_all [leaves, Expression.leaves]
    | parenthesized o e c =>
      simp only [children, List.mem_cons, List.not_mem_nil, or_false] at h
      rcases h with rfl | rfl | rfl <;> simp_all [leaves, Expression.leaves]

/-! ## Addresses -/

variable {n m : SyntaxNode} {p q : List Nat}

theorem at?_append (n : SyntaxNode) (p q : List Nat) :
    n.at? (p ++ q) = (n.at? p).bind fun m => m.at? q := by
  induction p generalizing n with
  | nil => rfl
  | cons i p ih =>
    cases hc : n.children[i]? with
    | none => simp [at?, hc]
    | some c => simpa [at?, hc] using ih c

theorem leaves_subset_of_at? (h : n.at? p = some m) : m.leaves ⊆ n.leaves := by
  induction p generalizing n with
  | nil =>
    obtain rfl := Option.some.inj h
    exact List.Subset.refl _
  | cons i p ih =>
    obtain ⟨c, hc, hm⟩ := Option.bind_eq_some_iff.mp h
    exact List.Subset.trans (ih hm) (leaves_subset_of_mem_children (List.mem_of_getElem? hc))

theorem mem_fromParent {i j : Nat} {visits : List (List Nat × SyntaxNode)} :
    (i :: p, m) ∈ fromParent j visits ↔ i = j ∧ (p, m) ∈ visits := by
  simp only [fromParent, List.mem_map, Prod.mk.injEq, List.cons.injEq, Prod.exists]
  constructor
  · rintro ⟨q, k, hmem, ⟨rfl, rfl⟩, rfl⟩
    exact ⟨rfl, hmem⟩
  · rintro ⟨rfl, hmem⟩
    exact ⟨p, m, hmem, ⟨rfl, rfl⟩, rfl⟩

theorem nil_not_mem_fromParent {j : Nat} {visits : List (List Nat × SyntaxNode)} :
    ([], m) ∉ fromParent j visits := by
  simp [fromParent]

/-- **What is visited are the nodes at all addresses.** -/
theorem mem_visits : (p, m) ∈ n.visits ↔ n.at? p = some m := by
  induction n using SyntaxNode.induction generalizing p with
  | node n ih =>
    rw [visits_eq, List.mem_cons, List.mem_flatMap]
    cases p with
    | nil =>
      constructor
      · rintro (h | ⟨c, -, h⟩)
        · rw [(Prod.mk.inj h).2]
          rfl
        · exact absurd h nil_not_mem_fromParent
      · intro h
        rw [Option.some.inj h]
        exact .inl rfl
    | cons i p =>
      rw [at?, Option.bind_eq_some_iff]
      constructor
      · rintro (h | ⟨⟨c, j⟩, hc, h⟩)
        · exact absurd (Prod.mk.inj h).1 (List.cons_ne_nil i p)
        · obtain ⟨rfl, hmem⟩ := mem_fromParent.mp h
          have hc := List.mk_mem_zipIdx_iff_getElem?.mp hc
          exact ⟨c, hc, (ih c (List.mem_of_getElem? hc)).mp hmem⟩
      · rintro ⟨c, hc, hmem⟩
        refine .inr ⟨(c, i), List.mk_mem_zipIdx_iff_getElem?.mpr hc, mem_fromParent.mpr ⟨rfl, ?_⟩⟩
        exact (ih c (List.mem_of_getElem? hc)).mpr hmem

/-- **Addresses are visited in lexicographic order**: a node in front of what lies below it, and that
in front of what lies further to the right. -/
theorem pairwise_visits (n : SyntaxNode) : n.visits.Pairwise fun v w => v.1 < w.1 := by
  induction n using SyntaxNode.induction with
  | node n ih =>
    rw [visits_eq, List.pairwise_cons, List.pairwise_flatMap]
    refine ⟨?below, ?inside, ?across⟩
    case below =>
      intro v hv
      obtain ⟨c, -, hv⟩ := List.mem_flatMap.mp hv
      obtain ⟨w, -, rfl⟩ := List.mem_map.mp hv
      exact List.nil_lt_cons _ _
    case inside =>
      rintro ⟨c, i⟩ hc
      have hc := List.mk_mem_zipIdx_iff_getElem?.mp hc
      refine List.pairwise_map.mpr ((ih c (List.mem_of_getElem? hc)).imp fun hlt => ?_)
      exact List.cons_lt_cons_iff.mpr (.inr ⟨rfl, hlt⟩)
    case across =>
      have hindices : n.children.zipIdx.Pairwise fun c d => c.2 < d.2 := by
        rw [← List.pairwise_map (f := Prod.snd) (R := (· < ·)), List.zipIdx_map_snd]
        exact List.pairwise_lt_range' 1
      refine hindices.imp fun hlt v hv w hw => ?_
      obtain ⟨-, -, rfl⟩ := List.mem_map.mp hv
      obtain ⟨-, -, rfl⟩ := List.mem_map.mp hw
      exact List.cons_lt_cons_iff.mpr (.inl hlt)

/-- `visits` lists a tree in preorder: all its addresses in lexicographic order, each with the node
that stands there. -/
structure IsPreorder (n : SyntaxNode) (visits : List (List Nat × SyntaxNode)) : Prop where
  mem_iff : ∀ p m, (p, m) ∈ visits ↔ n.at? p = some m
  ordered : visits.Pairwise fun v w => v.1 < w.1

theorem isPreorder_visits (n : SyntaxNode) : n.IsPreorder n.visits :=
  ⟨fun _ _ => mem_visits, n.pairwise_visits⟩

end SyntaxNode

/-- The node by itself, without what lies below it. -/
def SyntaxNode.top : SyntaxNode → Expression.Node
  | token t => .token t
  | expression e => .expression e.form

theorem SyntaxNode.map_fromParent (depth i : Nat) (visits : List (List Nat × SyntaxNode)) :
    (fromParent i visits).map (fun v => (depth + v.1.length, v.2.top)) =
      visits.map fun v => (depth + 1 + v.1.length, v.2.top) := by
  rw [fromParent, List.map_map]
  refine List.map_congr_left fun v _ => ?_
  simp only [Function.comp_apply, List.length_cons, Prod.mk.injEq, and_true]
  omega

/-- **The depth of a node is the length of its address.** -/
theorem Expression.nodes_eq (e : Expression) (depth : Nat) :
    e.nodes depth = e.visits.map fun v => (depth + v.1.length, v.2.top) := by
  induction e generalizing depth with
  | literal t => rfl
  | unary op e ih =>
    rw [nodes, visits, List.map_cons, List.map_cons, map_fromParent, ih]
    rfl
  | binary l op r ihl ihr =>
    rw [nodes, visits, List.map_append, List.map_cons, List.map_cons, map_fromParent,
      map_fromParent, ihl, ihr]
    rfl
  | parenthesized o e c ih =>
    rw [nodes, visits, List.map_append, List.map_cons, List.map_cons, map_fromParent, ih]
    rfl

end Reckoner
