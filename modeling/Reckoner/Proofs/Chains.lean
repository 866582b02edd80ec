import Reckoner.Proofs.Composition
import Reckoner.Proofs.Expression.Series
import Reckoner.Proofs.Token.Numbers
import Reckoner.Proofs.Typing.Decision

/-!
# Chains of operators

Numbers with operators of one precedence between them are a chain. It is computed from left to
right, and it is one level higher with each operator, so the limit on levels is reached after as
many numbers.

* `Link`, `chainLine`: an operator with the number behind it, and the line of a chain.
* `Lexeme.solid_links`: the pieces of a chain.
* `Expression.linked`: its tree; `Expression.IsChained.linked`: it is shaped as it is read.
* `Parser.finish_of_reached`: in front of an operator a tree that reaches the limit is all that is
  read.
* `Expression.ComesTo`: what the tree of an integer comes to; `ComesTo.linked_fold`,
  `ComesTo.linked_fault`.
* **`chains_fold_left`**: what chains come to.
-/

namespace Reckoner

open Lexeme Expression Reckoner.Parser

/-! ## Chains and their pieces -/

/-- An operator and the number behind it. -/
structure Link where
  operator : TokenKind
  operand : Nat

/-- How a link is written. -/
def Link.text (x : Link) : String :=
  " " ++ x.operator.spelling ++ " " ++ Decimal.natural x.operand

/-- The line of a number and the links behind it. -/
def chainLine (v : Nat) (links : List Link) : String :=
  Decimal.natural v ++ String.join (links.map Link.text)

/-- A number as a piece of a line. -/
def numeral (v : Nat) : Lexeme :=
  ⟨.number, Nat.toDigits 10 v⟩

/-- Where the number of a link stands if the link starts at `position`. -/
def Link.operandPlace (x : Link) (position : Nat) : Nat :=
  position + 1 + x.operator.spelling.utf8ByteSize + 1

/-- The pieces of a link that starts at `position`. -/
def Link.pieces (x : Link) (position : Nat) : List (Lexeme × Nat) :=
  [(x.operator.sign, position + 1), (numeral x.operand, x.operandPlace position)]

/-- The pieces of links from `position` on. -/
def linkPieces (position : Nat) : List Link → List (Lexeme × Nat)
  | [] => []
  | x :: xs => x.pieces position ++ linkPieces (position + x.text.utf8ByteSize) xs

variable {v w q n position : Nat} {k : TokenKind} {x : Link} {xs ys links : List Link}
  {e : Expression}

theorem utf8ByteSize_join_cons (x : Link) (xs : List Link) :
    (String.join ((x :: xs).map Link.text)).utf8ByteSize =
      x.text.utf8ByteSize + (String.join (xs.map Link.text)).utf8ByteSize := by
  rw [← String.utf8ByteSize_append]
  congr 1
  apply String.toList_inj.mp
  simp [String.toList_join]

theorem linkPieces_append (position : Nat) (xs ys : List Link) :
    linkPieces position (xs ++ ys) = linkPieces position xs ++
      linkPieces (position + (String.join (xs.map Link.text)).utf8ByteSize) ys := by
  induction xs generalizing position with
  | nil => simp [linkPieces]
  | cons x xs ih =>
    rw [List.cons_append, linkPieces, ih, linkPieces, List.append_assoc, utf8ByteSize_join_cons,
      Nat.add_assoc]

namespace Lexeme

theorem isDigit_toDigits (v : Nat) : ∀ c ∈ Nat.toDigits 10 v, c.isDigit = true :=
  fun _ hc => Nat.isDigit_of_mem_toDigits (by decide) (by decide) hc

theorem solid_numeral (v position : Nat) :
    solid position (Nat.toDigits 10 v) = [(numeral v, position)] := by
  have hcut := @cut_digits (Nat.toDigits 10 v) [] Nat.toDigits_ne_nil (isDigit_toDigits v)
    fun c hc => absurd hc (Option.not_mem_none c)
  rw [List.append_nil, cut_nil] at hcut
  rw [solid, hcut]
  rfl

theorem solid_sign (hk : k ∈ signKinds) (position : Nat) :
    solid position k.spelling.toList = [(k.sign, position)] := by
  have hblank : (k.sign.kind != .blank) = true := by
    revert hk
    cases k <;> decide
  rw [solid, cut_sign hk]
  simp [placed, hblank]

theorem solid_blank (position : Nat) (s : List Char) :
    solid position (' ' :: s) = solid (position + 1) s :=
  solid_blanks (w := [' ']) (List.forall_mem_singleton.mpr rfl) position s

theorem solid_link (hk : x.operator ∈ signKinds) (position : Nat) :
    solid position x.text.toList = x.pieces position := by
  have htext : x.text.toList =
      ' ' :: (x.operator.spelling.toList ++ ' ' :: Nat.toDigits 10 x.operand) := by
    simp [Link.text]
  have hhead : ∀ d ∈ (' ' :: Nat.toDigits 10 x.operand).head?, Text.isBlank d = true := by
    rintro d ⟨⟩
    rfl
  rw [htext, solid_blank, solid_append hhead, solid_sign hk, solid_blank, solid_numeral,
    bytes_toList]
  rfl

theorem solid_links (hk : ∀ x ∈ xs, x.operator ∈ signKinds) (s : List Char) (position : Nat) :
    solid position (s ++ (String.join (xs.map Link.text)).toList) =
      solid position s ++ linkPieces (position + bytes s) xs := by
  induction xs generalizing s with
  | nil => simp [linkPieces]
  | cons x xs ih =>
    obtain ⟨hx, hxs⟩ := List.forall_mem_cons.mp hk
    have htext : s ++ (String.join ((x :: xs).map Link.text)).toList =
        (s ++ x.text.toList) ++ (String.join (xs.map Link.text)).toList := by
      simp [String.toList_join]
    -- a link begins with a blank, which cuts it off from what stands in front of it
    have hhead : ∀ d ∈ x.text.toList.head?, Text.isBlank d = true := by
      simp [Link.text]
      rfl
    rw [htext, ih hxs, solid_append hhead, solid_link hx, linkPieces, bytes_append, bytes_toList,
      List.append_assoc, Nat.add_assoc]

theorem numeral_spec (hv : v ≤ 2147483647) (position : Nat) :
    ((numeral v).token position).denoted = .integer (.ofNat v) ∧
      (numeral v).diagnostic? position = none := by
  have hvalue : number (Nat.toDigits 10 v) = .ofNat v := by
    rw [number_eq, Decimal.value_toDigits, Int32.ofInt_eq_ofNat]
  have hnote := diagnostic?_number Nat.toDigits_ne_nil (isDigit_toDigits v) position
  rw [Decimal.value_toDigits, if_neg] at hnote
  · refine ⟨?_, Option.toList_eq_nil_iff.mp hnote⟩
    simp [Token.denoted, numeral, token, value?, hvalue]
  · exact not_or.mpr ⟨Nat.not_lt.mpr hv, Decimal.not_isPadded_toDigits v⟩

end Lexeme

/-! ## The tree of a chain -/

/-- The tree `e` and the links behind it, which start at `position`: each link takes all in front of
it for its left operand. -/
def Expression.linked (e : Expression) (position : Nat) : List Link → Expression
  | [] => e
  | x :: xs =>
    linked (.binary e (x.operator.sign.token (position + 1))
      (.literal ((numeral x.operand).token (x.operandPlace position))))
      (position + x.text.utf8ByteSize) xs

/-- The tree of a number and the links behind it. -/
def chainTree (v : Nat) (links : List Link) : Expression :=
  (Expression.literal ((numeral v).token 0)).linked (Decimal.natural v).utf8ByteSize links

namespace Expression

theorem leaves_linked (e : Expression) (position : Nat) (xs : List Link) :
    (e.linked position xs).leaves =
      e.leaves ++ (linkPieces position xs).map fun y => y.1.token y.2 := by
  induction xs generalizing e position with
  | nil => simp [linked, linkPieces]
  | cons x xs ih =>
    rw [linked, ih, leaves, leaves, linkPieces, List.map_append, ← List.append_assoc]
    rfl

theorem linked_append (e : Expression) (position : Nat) (xs ys : List Link) :
    e.linked position (xs ++ ys) = (e.linked position xs).linked
      (position + (String.join (xs.map Link.text)).utf8ByteSize) ys := by
  induction xs generalizing e position with
  | nil => simp [linked]
  | cons x xs ih => rw [List.cons_append, linked, ih, linked, utf8ByteSize_join_cons, Nat.add_assoc]

theorem height_linked (e : Expression) (position : Nat) (xs : List Link) :
    (e.linked position xs).height = e.height + xs.length := by
  induction xs generalizing e position with
  | nil => rfl
  | cons x xs ih =>
    have hpos := e.height_pos
    rw [linked, ih, height, height, List.length_cons]
    omega

/-- The tree is shaped as it is read, and an operator of the precedence `q` takes all of it for its
left operand. -/
structure IsChained (q : Nat) (e : Expression) : Prop where
  shaped : e.Shaped 0
  rightAtLeast : e.RightAtLeast q
  proper : e.Proper

theorem isChained_numeral (q v position : Nat) :
    (literal ((numeral v).token position)).IsChained q :=
  ⟨shaped_literal, trivial, .inl rfl⟩

theorem IsChained.link (h : e.IsChained q) (hk : k.binaryPrecedence? = some q)
    (position w place : Nat) : (binary e (k.sign.token position) (literal ((numeral w).token place))).IsChained q where
  shaped := shaped_binary.mpr
    ⟨q, hk, (binaryPrecedence?_bounds hk).1, h.shaped, h.rightAtLeast, shaped_literal⟩
  rightAtLeast := ⟨⟨q, hk, Nat.le_refl q⟩, trivial⟩
  proper := ⟨fun hnone => Option.some_ne_none q (hk.symm.trans hnone), h.proper, .inl rfl⟩

/-- **Links of one precedence are shaped as they are read.** -/
theorem IsChained.linked (h : e.IsChained q)
    (hk : ∀ x ∈ xs, x.operator.binaryPrecedence? = some q) (position : Nat) :
    (e.linked position xs).IsChained q := by
  induction xs generalizing e position with
  | nil => exact h
  | cons x xs ih =>
    obtain ⟨hx, hxs⟩ := List.forall_mem_cons.mp hk
    exact ih (h.link hx _ _ _) hxs _

end Expression

/-! ## Trees that reach the limit -/

/-- **In front of an operator, a tree that reaches the limit is all that is read.** The operator
would take all of it for its left operand; that it may not is the only note, and covers the
operator. -/
theorem Parser.finish_of_reached {p : Parser} {op : Token} {rest : List Token} (hs : e.Shaped 0)
    (hp : e.Proper) (hrest : p.rest = e.leaves ++ op :: rest)
    (hq : op.kind.binaryPrecedence? = some q) (he : e.RightAtLeast q) (ha : p.abandoned = false)
    (hd : p.depth = 0) (hn : e.height = n) :
    p.finish (some n) =
      ⟨e, .ending p.stop, p.diagnostics.push ⟨op.span, .nestedTooDeep n⟩⟩ := by
  have hpos := e.height_pos
  let q₀ := p.enter.behind (op :: rest)
  have hcut : Reads (some n) (.chain 0 e e.height) q₀ e e.height (q₀.abandon n) :=
    .cut (binaryAt?_eq_some.mpr ⟨hq, (binaryPrecedence?_bounds hq).1⟩) (reached?_of_le hn.ge)
  have habove : q₀.Above e := by
    intro q' hq'
    obtain rfl : q = q' := Option.some.inj (hq.symm.trans hq')
    exact he
  have hdepth : ∀ m ∈ some n, p.enter.depth + e.height ≤ m + 1 := by
    intro m hm
    obtain rfl : n = m := Option.some.inj hm
    simp only [enter, hd]
    omega
  obtain ⟨e₁, h₁, p₁, hfirst, hchain⟩ :=
    e.passes hp hs (p := p.enter) hrest habove (Nat.succ_pos _) hdepth hcut
  have hread := Reads.opened (reached?_of_lt (by omega)) hfirst hchain
  obtain ⟨hending, hquiet⟩ := expect_ending_of_nil (p := (q₀.abandon n).leave) rfl
  rw [hread.finish_eq, hending, hquiet]
  simp [q₀, Parser.leave, Parser.abandon, report, Parser.behind, enter, ha, current]

/-! ## What a chain comes to -/

/-- The operators of integers, by precedence. -/
def arithmeticLevels : List (List TokenKind) :=
  [[.plus, .minus], [.times, .slash, .percent], [.caret]]

namespace TokenKind

/-- What an operator makes of two integers if it does not divide by zero. -/
def wrapped : TokenKind → Int32 → Int32 → Int32
  | plus, m, n => m + n
  | minus, m, n => m - n
  | times, m, n => m * n
  | slash, m, n => m / n
  | percent, m, n => m % n
  | caret, m, n => integerPower m n
  | _, m, _ => m

/-- The division that an operator is. -/
def division? : TokenKind → Option Division
  | slash => some .quotient
  | percent => some .remainder
  | _ => none

end TokenKind

/-- The operator of a link is one of the level, and its number fits 32 bits. -/
structure Link.IsOf (level : List TokenKind) (x : Link) : Prop where
  operator_mem : x.operator ∈ level
  operand_le : x.operand ≤ 2147483647

/-- The division by zero that a link is. -/
def Link.divisionByZero? (x : Link) : Option Division :=
  if x.operand = 0 then x.operator.division? else none

/-- The integer to which links lead from `m` if none of them divides by zero. -/
def folded (m : Int32) (links : List Link) : Int32 :=
  links.foldl (fun m x => x.operator.wrapped m (.ofNat x.operand)) m

variable {level : List TokenKind}

theorem exists_precedence (hlevel : level ∈ arithmeticLevels) :
    ∃ q, ∀ k ∈ level, k.binaryPrecedence? = some q := by
  simp only [arithmeticLevels, List.mem_cons, List.not_mem_nil, or_false] at hlevel
  rcases hlevel with rfl | rfl | rfl
  · exact ⟨3, by decide⟩
  · exact ⟨4, by decide⟩
  · exact ⟨6, by decide⟩

/-- The operation `o` is what the operator `k` does with integers. -/
structure TokenKind.DoesWithIntegers (k : TokenKind) (o : BinaryOperation) : Prop where
  mem_all : BinaryOverload.same k o .integer ∈ BinaryOverload.all
  wrapped : ∀ m n : Int32, k.division? = none ∨ n ≠ 0 → o.onIntegers m n = .ok (k.wrapped m n)
  fault : ∀ m d, k.division? = some d → o.onIntegers m 0 = .error (.fault ⟨d, m⟩)

theorem exists_doesWithIntegers (hlevel : level ∈ arithmeticLevels) (hk : k ∈ level) :
    ∃ o, k.DoesWithIntegers o := by
  have hmem : k ∈ arithmeticLevels.flatten := List.mem_flatten_of_mem hlevel hk
  simp only [arithmeticLevels, List.flatten_cons, List.flatten_nil, List.cons_append,
    List.nil_append, List.mem_cons, List.not_mem_nil, or_false] at hmem
  have hnone {d : Division} {m : Int32} {o : BinaryOperation} (h : none = some d) :
      o.onIntegers m 0 = .error (.fault ⟨d, m⟩) := absurd h.symm (Option.some_ne_none d)
  rcases hmem with rfl | rfl | rfl | rfl | rfl | rfl
  · exact ⟨.addition, by decide, fun _ _ _ => rfl, fun _ _ => hnone⟩
  · exact ⟨.subtraction, by decide, fun _ _ _ => rfl, fun _ _ => hnone⟩
  · exact ⟨.multiplication, by decide, fun _ _ _ => rfl, fun _ _ => hnone⟩
  · refine ⟨.division, by decide, fun m n h => ?_, fun m d h => ?_⟩
    · exact if_neg (h.resolve_left (Option.some_ne_none _))
    · obtain rfl := Option.some.inj h
      rfl
  · refine ⟨.modulo, by decide, fun m n h => ?_, fun m d h => ?_⟩
    · exact if_neg (h.resolve_left (Option.some_ne_none _))
    · obtain rfl := Option.some.inj h
      rfl
  · exact ⟨.exponentiation, by decide, fun _ _ _ => rfl, fun _ _ => hnone⟩

theorem ofNat_ne_zero (hw : w ≤ 2147483647) (hne : w ≠ 0) : Int32.ofNat w ≠ 0 := by
  intro h
  have hint := congrArg Int32.toInt h
  rw [Int32.toInt_ofNat_of_lt (by omega)] at hint
  exact hne (Int.ofNat_eq_zero.mp hint)

namespace Expression

/-- The tree is resolved to integers and comes to `r`. -/
def ComesTo (e : Expression) (r : Except Failure Int32) : Prop :=
  ∃ typed, e.Resolves typed ∧ typed.type = .integer ∧ typed.evaluate = r.map .integer

variable {r : Except Failure Int32} {m : Int32} {f : Failure} {level : List TokenKind}

theorem comesTo_numeral (hv : v ≤ 2147483647) (position : Nat) :
    (literal ((numeral v).token position)).ComesTo (.ok (.ofNat v)) := by
  have hliteral := Resolves.literal ((numeral v).token position)
  rw [(numeral_spec hv position).1] at hliteral
  exact ⟨_, hliteral, rfl, rfl⟩

theorem ComesTo.binary {o : BinaryOperation} (h : e.ComesTo r)
    (ho : BinaryOverload.same k o .integer ∈ BinaryOverload.all) (hw : w ≤ 2147483647)
    (position place : Nat) :
    (binary e (k.sign.token position) (literal ((numeral w).token place))).ComesTo
      (r >>= fun m => o.onIntegers m (.ofNat w)) := by
  obtain ⟨left, hl, htype, heval⟩ := h
  obtain ⟨right, hr, hrtype, hreval⟩ := comesTo_numeral hw place
  have hresolves : (Expression.binary e (k.sign.token position)
      (literal ((numeral w).token place))).Resolves _ :=
    .binary hl hr ho rfl htype.symm hrtype.symm
  refine ⟨_, hresolves, rfl, ?_⟩
  rw [TypedExpression.evaluate, heval, hreval]
  cases r <;> rfl

theorem ComesTo.link_ok (h : e.ComesTo (.ok m)) (hx : x.IsOf level)
    (hlevel : level ∈ arithmeticLevels) (hdiv : x.divisionByZero? = none) (position place : Nat) :
    (Expression.binary e (x.operator.sign.token position)
      (literal ((numeral x.operand).token place))).ComesTo
        (.ok (x.operator.wrapped m (.ofNat x.operand))) := by
  obtain ⟨o, ho⟩ := exists_doesWithIntegers hlevel hx.operator_mem
  have hstep := h.binary ho.mem_all hx.operand_le position place
  have hnonzero : x.operator.division? = none ∨ Int32.ofNat x.operand ≠ 0 := by
    by_cases hzero : x.operand = 0
    · rw [Link.divisionByZero?, if_pos hzero] at hdiv
      exact .inl hdiv
    · exact .inr (ofNat_ne_zero hx.operand_le hzero)
  rw [← ho.wrapped m _ hnonzero]
  exact hstep

theorem ComesTo.link_fault {d : Division} (h : e.ComesTo (.ok m)) (hx : x.IsOf level)
    (hlevel : level ∈ arithmeticLevels) (hdiv : x.divisionByZero? = some d)
    (position place : Nat) :
    (Expression.binary e (x.operator.sign.token position)
      (literal ((numeral x.operand).token place))).ComesTo (.error (.fault ⟨d, m⟩)) := by
  obtain ⟨o, ho⟩ := exists_doesWithIntegers hlevel hx.operator_mem
  have hstep := h.binary ho.mem_all hx.operand_le position place
  obtain ⟨hzero, hoperator⟩ := Option.ite_none_right_eq_some.mp hdiv
  rw [hzero] at hstep ⊢
  rw [← ho.fault m d hoperator]
  exact hstep

/-- **Links that divide by no zero are computed from left to right.** -/
theorem ComesTo.linked_fold (h : e.ComesTo (.ok m)) (hxs : ∀ x ∈ xs, x.IsOf level)
    (hlevel : level ∈ arithmeticLevels) (hdiv : ∀ x ∈ xs, x.divisionByZero? = none)
    (position : Nat) : (e.linked position xs).ComesTo (.ok (folded m xs)) := by
  induction xs generalizing e m position with
  | nil => exact h
  | cons x xs ih =>
    obtain ⟨hx, hxs⟩ := List.forall_mem_cons.mp hxs
    obtain ⟨hxdiv, hdiv⟩ := List.forall_mem_cons.mp hdiv
    exact ih (h.link_ok hx hlevel hxdiv _ _) hxs hdiv _

theorem ComesTo.exists_linked (h : e.ComesTo r) (hxs : ∀ x ∈ xs, x.IsOf level)
    (hlevel : level ∈ arithmeticLevels) (position : Nat) :
    ∃ r', (e.linked position xs).ComesTo r' ∧ ∀ f, r = .error f → r' = .error f := by
  induction xs generalizing e r position with
  | nil => exact ⟨r, h, fun _ hr => hr⟩
  | cons x xs ih =>
    obtain ⟨hx, hxs⟩ := List.forall_mem_cons.mp hxs
    obtain ⟨o, ho⟩ := exists_doesWithIntegers hlevel hx.operator_mem
    obtain ⟨r', hr', herror⟩ := ih (h.binary ho.mem_all hx.operand_le _ _) hxs _
    refine ⟨r', hr', fun f hf => herror f ?_⟩
    rw [hf]
    rfl

/-- **The first link that divides by zero is the fault of the chain.** -/
theorem ComesTo.linked_fault {d : Division} (h : e.ComesTo (.ok m))
    (hxs : ∀ y ∈ xs ++ x :: ys, y.IsOf level) (hlevel : level ∈ arithmeticLevels)
    (hfront : ∀ x ∈ xs, x.divisionByZero? = none) (hdiv : x.divisionByZero? = some d)
    (position : Nat) :
    (e.linked position (xs ++ x :: ys)).ComesTo (.error (.fault ⟨d, folded m xs⟩)) := by
  obtain ⟨hxs, hmore⟩ := List.forall_mem_append.mp hxs
  obtain ⟨hx, hys⟩ := List.forall_mem_cons.mp hmore
  have hbefore := h.linked_fold hxs hlevel hfront position
  rw [linked_append, linked]
  obtain ⟨r', hr', herror⟩ := (hbefore.link_fault hx hlevel hdiv _ _).exists_linked hys hlevel _
  rwa [herror _ rfl] at hr'

end Expression

/-! ## Lines -/

section Lines

variable {level : List TokenKind}

theorem mem_signKinds_of_level (hlevel : level ∈ arithmeticLevels) (hk : k ∈ level) :
    k ∈ signKinds := by
  obtain ⟨q, hq⟩ := exists_precedence hlevel
  refine mem_signKinds_of_binary (mem_binaryKinds.mpr fun hnone => ?_)
  exact Option.some_ne_none q ((hq k hk).symm.trans hnone)

theorem solid_chainLine (v : Nat) (hk : ∀ x ∈ links, x.operator ∈ signKinds) :
    solid 0 (chainLine v links).toList =
      (numeral v, 0) :: linkPieces (Decimal.natural v).utf8ByteSize links := by
  rw [chainLine, String.toList_append, solid_links hk, Decimal.toList_natural, solid_numeral,
    Nat.zero_add]
  rfl

theorem of_mem_linkPieces (hxs : ∀ x ∈ xs, x.IsOf level) (hlevel : level ∈ arithmeticLevels)
    {y : Lexeme × Nat} (hy : y ∈ linkPieces position xs) :
    y.1.kind.isSeparator = false ∧ y.1.diagnostic? y.2 = none := by
  induction xs generalizing position with
  | nil => exact absurd hy List.not_mem_nil
  | cons x xs ih =>
    obtain ⟨hx, hxs⟩ := List.forall_mem_cons.mp hxs
    rcases List.mem_append.mp hy with hy | hy
    · rcases List.mem_pair.mp hy with rfl | rfl
      · exact sign_spec (mem_signKinds_of_level hlevel hx.operator_mem) _
      · exact ⟨rfl, (numeral_spec hx.operand_le _).2⟩
    · exact ih hxs hy

/-- **The line of a chain stands for its tree**, with nothing wrong in it. -/
theorem stands_chainLine (hv : v ≤ 2147483647) (hlinks : ∀ x ∈ links, x.IsOf level)
    (hlevel : level ∈ arithmeticLevels) : Stands 0 (chainLine v links) (chainTree v links) := by
  obtain ⟨q, hq⟩ := exists_precedence hlevel
  have hsolid := solid_chainLine v fun x hx =>
    mem_signKinds_of_level hlevel (hlinks x hx).operator_mem
  have hpieces : ∀ y ∈ solid 0 (chainLine v links).toList,
      y.1.kind.isSeparator = false ∧ y.1.diagnostic? y.2 = none := by
    rw [hsolid]
    exact List.forall_mem_cons.mpr
      ⟨⟨rfl, (numeral_spec hv 0).2⟩, fun y hy => of_mem_linkPieces hlinks hlevel hy⟩
  have hchained := (isChained_numeral q v 0).linked (fun x hx => hq _ (hlinks x hx).operator_mem)
    (Decimal.natural v).utf8ByteSize
  refine ⟨?leaves, ?notes, hchained.shaped, hchained.proper⟩
  case leaves =>
    have hself : (solid 0 (chainLine v links).toList).filter (fun y => !y.1.kind.isSeparator) =
        solid 0 (chainLine v links).toList :=
      List.filter_eq_self.mpr fun y hy => by rw [(hpieces y hy).1]; rfl
    rw [words_eq, hself, hsolid, chainTree, leaves_linked]
    rfl
  case notes =>
    rw [notes_eq, List.flatMap_eq_nil_iff]
    exact fun y hy => by rw [(hpieces y hy).2]; rfl

theorem evaluate_chainLine {r : Except Failure Int32} (hv : v ≤ 2147483647)
    (hlinks : ∀ x ∈ links, x.IsOf level) (hlevel : level ∈ arithmeticLevels)
    (hn : links.length + 1 ≤ nestingLimit) (hr : (chainTree v links).ComesTo r) :
    evaluate (chainLine v links) = r.map fun m => .value (.integer m) := by
  obtain ⟨typed, hresolves, -, heval⟩ := hr
  have hheight : (chainTree v links).height ≤ nestingLimit := by
    rw [chainTree, height_linked, height, Nat.add_comm]
    exact hn
  rw [evaluate, (stands_chainLine hv hlinks hlevel).analysis hheight, hresolves.elaborate_eq,
    Analysis.evaluate]
  simp only [Array.isEmpty_empty, if_true, heval]
  cases r <;> rfl

theorem utf8ByteSize_chainLine (v : Nat) (xs : List Link) :
    (Decimal.natural v).utf8ByteSize + (String.join (xs.map Link.text)).utf8ByteSize =
      (chainLine v xs).utf8ByteSize := by
  rw [chainLine, String.utf8ByteSize_append]

theorem exists_leaves_chainTree (v : Nat) (xs : List Link) (x : Link) (ys : List Link) :
    ∃ later, (chainTree v (xs ++ x :: ys)).leaves = (chainTree v xs).leaves ++
      x.operator.sign.token ((chainLine v xs).utf8ByteSize + 1) :: later := by
  have hleaves := leaves_linked (.literal ((numeral v).token 0)) (Decimal.natural v).utf8ByteSize
    (xs ++ x :: ys)
  rw [linkPieces_append, utf8ByteSize_chainLine, List.map_append, ← List.append_assoc,
    ← leaves_linked, linkPieces, List.map_append] at hleaves
  exact ⟨_, hleaves⟩

/-- **Of a chain that is longer than the limit, all in front of the operator is read** at which the
limit is reached, and this operator is noted. -/
theorem parsed_chainLine_of_long (hv : v ≤ 2147483647)
    (hlinks : ∀ y ∈ xs ++ x :: ys, y.IsOf level) (hlevel : level ∈ arithmeticLevels)
    (hn : xs.length + 1 = nestingLimit) :
    ParsedLine.ofString (chainLine v (xs ++ x :: ys)) =
      ⟨chainTree v xs, .ending (chainLine v (xs ++ x :: ys)).utf8ByteSize,
        #[⟨⟨(chainLine v xs).utf8ByteSize + 1, x.operator.spelling.utf8ByteSize⟩,
          .nestedTooDeep nestingLimit⟩]⟩ := by
  obtain ⟨q, hq⟩ := exists_precedence hlevel
  obtain ⟨hxs, hmore⟩ := List.forall_mem_append.mp hlinks
  obtain ⟨hx, -⟩ := List.forall_mem_cons.mp hmore
  obtain ⟨later, hleaves⟩ := exists_leaves_chainTree v xs x ys
  have hparser := (stands_chainLine hv hlinks hlevel).parser
  have hchained := (isChained_numeral q v 0).linked (fun x hx => hq _ (hxs x hx).operator_mem)
    (Decimal.natural v).utf8ByteSize
  have hheight : (chainTree v xs).height = nestingLimit := by
    rw [chainTree, height_linked, height, Nat.add_comm, hn]
  rw [hleaves] at hparser
  rw [ParsedLine.ofString, hparser, Parser.finish_of_reached hchained.shaped hchained.proper rfl
    (hq _ hx.operator_mem) hchained.rightAtLeast rfl rfl hheight]
  rw [Token.span, literal_sign]
  rfl

theorem operands_linkPieces (hk : ∀ x ∈ xs, x.operator ∈ signKinds) (position : Nat) :
    (((linkPieces position xs).map fun y => y.1.token y.2).filter
      fun t => t.kind = .number).map Token.literal = xs.map fun x => Decimal.natural x.operand := by
  induction xs generalizing position with
  | nil => rfl
  | cons x xs ih =>
    obtain ⟨hx, hxs⟩ := List.forall_mem_cons.mp hk
    have hnumber : x.operator ≠ .number := fun h => absurd (h ▸ hx) (by decide)
    have hpieces : ((x.pieces position).map fun y => y.1.token y.2).filter
        (fun t => t.kind = .number) = [(numeral x.operand).token (x.operandPlace position)] := by
      simp [Link.pieces, TokenKind.sign, numeral, token, hnumber]
    rw [linkPieces, List.map_append, List.filter_append, hpieces, List.map_append, ih hxs]
    rfl

theorem operands_chainTree (v : Nat) (hk : ∀ x ∈ xs, x.operator ∈ signKinds) :
    ((chainTree v xs).leaves.filter fun t => t.kind = .number).map Token.literal =
      (v :: xs.map Link.operand).map Decimal.natural := by
  rw [chainTree, leaves_linked, List.filter_append, List.map_append, operands_linkPieces hk,
    List.map_cons, List.map_map]
  rfl

end Lines

/-- **Chains of one precedence are computed from left to right, up to the limit.** A chain of as
many numbers as the limit allows comes to the operations on its numbers, each applied to what is in
front of it, or to the fault of the first division by a zero. Of a longer chain as many numbers are
read as the limit allows; the operator behind them is the only thing that is noted. -/
theorem chains_fold_left (level : List TokenKind) (hlevel : level ∈ arithmeticLevels) (v : Nat)
    (links : List Link) (hv : v ≤ 2147483647)
    (hlinks : ∀ x ∈ links, x.operator ∈ level ∧ x.operand ≤ 2147483647) :
    (links.length + 1 ≤ nestingLimit →
      ((∀ x ∈ links, x.divisionByZero? = none) →
        evaluate (chainLine v links) = .ok (.value (.integer (folded (.ofNat v) links)))) ∧
      ∀ before x after d, links = before ++ x :: after →
        (∀ y ∈ before, y.divisionByZero? = none) → x.divisionByZero? = some d →
        evaluate (chainLine v links) = .error (.fault ⟨d, folded (.ofNat v) before⟩)) ∧
    (nestingLimit < links.length + 1 → ∃ front x back,
      links = front ++ x :: back ∧ front.length + 1 = nestingLimit ∧
      evaluate (chainLine v links) = .ok (.diagnostics
        #[⟨⟨(chainLine v front).utf8ByteSize + 1, x.operator.spelling.utf8ByteSize⟩,
          .nestedTooDeep nestingLimit⟩]) ∧
      (Analysis.ofString (chainLine v links)).parsed.root = chainTree v front ∧
      ((chainTree v front).leaves.filter fun t => t.kind = .number).map Token.literal =
        (v :: front.map Link.operand).map Decimal.natural) := by
  have hlinks : ∀ x ∈ links, x.IsOf level := fun x hx => ⟨(hlinks x hx).1, (hlinks x hx).2⟩
  have hfirst := comesTo_numeral hv 0
  refine ⟨fun hn => ⟨fun hdiv => ?value, ?fault⟩, fun hn => ?long⟩
  case value =>
    have hfold := hfirst.linked_fold hlinks hlevel hdiv (Decimal.natural v).utf8ByteSize
    exact evaluate_chainLine hv hlinks hlevel hn hfold
  case fault =>
    rintro before x after d rfl hbefore hdiv
    have hfault := hfirst.linked_fault hlinks hlevel hbefore hdiv (Decimal.natural v).utf8ByteSize
    exact evaluate_chainLine hv hlinks hlevel hn hfault
  case long =>
    have hlength : nestingLimit - 1 < links.length :=
      Nat.sub_one_lt_of_le (by decide) (Nat.le_of_lt_succ hn)
    -- the links are split at the operator that meets the limit
    obtain ⟨front, x, back, rfl, hfront⟩ : ∃ front x back,
        links = front ++ x :: back ∧ front.length + 1 = nestingLimit := by
      refine ⟨links.take (nestingLimit - 1), links[nestingLimit - 1],
        links.drop (nestingLimit - 1 + 1), ?_, ?_⟩
      · rw [← List.drop_eq_getElem_cons hlength, List.take_append_drop]
      · rw [List.length_take, Nat.min_eq_left hlength.le]
        rfl
    obtain ⟨hfrontOf, -⟩ := List.forall_mem_append.mp hlinks
    have hparsed := parsed_chainLine_of_long hv hlinks hlevel hfront
    obtain ⟨r, ⟨typed, hresolves, -⟩, -⟩ :=
      hfirst.exists_linked hfrontOf hlevel (Decimal.natural v).utf8ByteSize
    have hanalysis : Analysis.ofString (chainLine v (front ++ x :: back)) =
        { parsed := ParsedLine.ofString (chainLine v (front ++ x :: back))
          typed := typed
          diagnostics := #[⟨⟨(chainLine v front).utf8ByteSize + 1,
            x.operator.spelling.utf8ByteSize⟩, .nestedTooDeep nestingLimit⟩] } := by
      rw [Analysis.ofString, hparsed, chainTree, hresolves.elaborate_eq]
    have hsigns : ∀ x ∈ front, x.operator ∈ signKinds := fun x hx =>
      mem_signKinds_of_level hlevel (hfrontOf x hx).operator_mem
    refine ⟨front, x, back, rfl, hfront, ?_, ?_, operands_chainTree v hsigns⟩
    · rw [evaluate, hanalysis]
      rfl
    · rw [hanalysis, hparsed]

example : chainLine 9 [⟨.slash, 2⟩, ⟨.percent, 0⟩] = "9 / 2 % 0" := by
  decide

/-- A sum that leaves 32 bits and comes back, a chain with two divisions by zero, and a chain of 257
numbers. -/
theorem chains_fold_left_around :
    evaluate (chainLine 2147483647 [⟨.plus, 1⟩, ⟨.minus, 2⟩]) =
      .ok (.value (.integer 2147483646)) ∧
    evaluate (chainLine 9 [⟨.slash, 2⟩, ⟨.percent, 0⟩, ⟨.slash, 0⟩]) =
      .error (.fault ⟨.remainder, 4⟩) ∧
    ∃ front x back, List.replicate 256 ⟨.caret, 1⟩ = front ++ x :: back ∧
      front.length + 1 = nestingLimit ∧
      evaluate (chainLine 2 (List.replicate 256 ⟨.caret, 1⟩)) = .ok (.diagnostics
        #[⟨⟨(chainLine 2 front).utf8ByteSize + 1, x.operator.spelling.utf8ByteSize⟩,
          .nestedTooDeep nestingLimit⟩]) := by
  refine ⟨?wrapped, ?fault, ?long⟩
  case wrapped =>
    have hsum := chains_fold_left [.plus, .minus] (by decide) 2147483647
      [⟨.plus, 1⟩, ⟨.minus, 2⟩] (by decide) (by decide)
    exact (hsum.1 (by decide)).1 (by decide)
  case fault =>
    have hquotient := chains_fold_left [.times, .slash, .percent] (by decide) 9
      [⟨.slash, 2⟩, ⟨.percent, 0⟩, ⟨.slash, 0⟩] (by decide) (by decide)
    exact (hquotient.1 (by decide)).2 [⟨.slash, 2⟩] ⟨.percent, 0⟩ [⟨.slash, 0⟩] .remainder rfl
      (by decide) rfl
  case long =>
    have hpower := chains_fold_left [.caret] (by decide) 2 (List.replicate 256 ⟨.caret, 1⟩)
      (by decide) (fun x hx => by rw [List.eq_of_mem_replicate hx]; decide)
    obtain ⟨front, x, back, hsplit, hfront, hnote, -⟩ :=
      hpower.2 (by rw [List.length_replicate]; decide)
    exact ⟨front, x, back, hsplit, hfront, hnote⟩

end Reckoner
