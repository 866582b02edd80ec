import Mathlib.Logic.Relation
import Reckoner.Proofs.Expression.Cursor
import Reckoner.Proofs.Expression.TooDeep
import Reckoner.Proofs.Expression.Walk
import Reckoner.Proofs.Token.Places
import Reckoner.Typing

/-!
# Calls

A line may be read by several calls one after another, each of which makes calls of its own. Whatever
stands on the line, every call returns, keeps the count of open expressions, stays on the line, and
tells the height of what it returns; and this height is bounded by the limit.

* `Call.Makes`: the calls that a call makes; `Call.wellFounded_makes`, `Call.exists_moves`: none of them
  goes on forever, so each returns.
* `Reads.keeps`: how high a tree may be that is read inside a number of open expressions.
* `Call.Sound`, `Call.Makes.sound`: what is known of every call; `Call.Accounted`: what it comes to.
* `Cursor.After`: where a cursor stands after some calls.
* **`calls_accounted`**: every call returns and is accounted for.
-/

namespace Reckoner

open Reckoner.Parser Relation

/-- A task at a cursor. -/
structure Call where
  task : Task
  cursor : Cursor

/-! ## Calls that a call makes -/

/-- `a.Makes limit b`: on its way the call `a` makes the call `b`. Each round in which an operator is
taken counts as a call. -/
inductive Call.Makes (limit : Option Nat) : Call → Call → Prop
  | first {m : Nat} {c : Cursor} (hn : reached? limit c.depth = none) :
      Makes limit ⟨.nested m, c⟩ ⟨.operand m, c.enter⟩
  | operators {m h : Nat} {c c' : Cursor} {e : Expression} (hn : reached? limit c.depth = none)
      (hfirst : c.enter.Moves limit (.operand m) e h c') :
      Makes limit ⟨.nested m, c⟩ ⟨.chain m e h, c'⟩
  | unary {m q : Nat} {c : Cursor} (hq : c.unaryAt? m = some q) :
      Makes limit ⟨.operand m, c⟩ ⟨.nested q, c.next⟩
  | parenthesized {m : Nat} {c : Cursor} (hq : c.unaryAt? m = none)
      (hk : c.current.kind = .openParen) : Makes limit ⟨.operand m, c⟩ ⟨.nested 0, c.next⟩
  | right {m q h : Nat} {c : Cursor} {e : Expression} (hq : c.binaryAt? m = some q)
      (hn : reached? limit h = none) : Makes limit ⟨.chain m e h, c⟩ ⟨.nested q, c.next⟩
  | later {m q h h₁ : Nat} {c c₁ : Cursor} {e r : Expression} (hq : c.binaryAt? m = some q)
      (hn : reached? limit h = none) (hright : c.next.Moves limit (.nested q) r h₁ c₁) :
      Makes limit ⟨.chain m e h, c⟩ ⟨.chain m (.binary e c.current r) (max h h₁ + 1), c₁⟩

variable {limit : Option Nat} {a b : Call} {t : Task} {c c' : Cursor} {p p' : Parser}
  {e : Expression} {es : List Expression} {h m n q : Nat} {line : String} {minimums : List Nat}

namespace Cursor

/-- How many tokens are left in front of the end. -/
def remaining (c : Cursor) : Nat :=
  c.place.rest.length

theorem Moves.remaining_le (hm : c.Moves limit t e h c') : c'.remaining ≤ c.remaining := by
  obtain ⟨more, hleads⟩ := hm.reads.leadsTo
  exact hleads.rest.length_le

theorem remaining_next_lt (hk : c.current.kind ≠ .ending) : c.next.remaining < c.remaining := by
  rw [← current_place] at hk
  rw [remaining, place_next]
  exact length_advance_lt hk

end Cursor

open Cursor

/-- Each call leaves fewer tokens to those that it makes, or the same ones to an operand or to the
operators, which open no expression. -/
def Call.size (a : Call) : Nat :=
  2 * a.cursor.remaining + match a.task with
    | .nested _ => 1
    | _ => 0

theorem Call.Makes.size_lt (hm : a.Makes limit b) : b.size < a.size := by
  cases hm with
  | first hn => exact Nat.lt_succ_self _
  | @operators m h c c' e hn hfirst =>
    have hle : c'.remaining ≤ c.remaining := hfirst.remaining_le
    simp only [size]
    omega
  | unary hq =>
    have hlt := remaining_next_lt (kind_ne_ending_of_unaryAt? hq)
    simp only [size]
    omega
  | parenthesized hq hk =>
    have hlt := remaining_next_lt (kind_ne_ending_of_openParen hk)
    simp only [size]
    omega
  | right hq hn =>
    have hlt := remaining_next_lt (kind_ne_ending_of_binaryAt? hq)
    simp only [size]
    omega
  | later hq hn hright =>
    have hlt := remaining_next_lt (kind_ne_ending_of_binaryAt? hq)
    have hle := hright.remaining_le
    simp only [size]
    omega

/-- **No call makes calls that go on forever.** -/
theorem Call.wellFounded_makes (limit : Option Nat) :
    WellFounded fun b a : Call => a.Makes limit b :=
  Subrelation.wf (fun hm => hm.size_lt) (measure Call.size).wf

/-- **Every call returns**: there are the calls that it makes and nothing else to wait for. -/
theorem Call.exists_moves (limit : Option Nat) (a : Call) :
    ∃ e h c', a.cursor.Moves limit a.task e h c' := by
  -- the calls that a call makes come to their ends, the second one behind the end of the first
  induction a using (wellFounded_makes limit).induction with
  | _ a ih =>
    obtain ⟨t, c⟩ := a
    cases t with
    | nested m =>
      cases hn : reached? limit c.depth with
      | some n => exact ⟨_, _, _, .shut hn⟩
      | none =>
        obtain ⟨e, h, c', hfirst⟩ := ih _ (.first hn)
        obtain ⟨e', h', c'', hchain⟩ := ih _ (.operators hn hfirst)
        exact ⟨_, _, _, .opened hn hfirst hchain⟩
    | operand m =>
      cases hq : c.unaryAt? m with
      | some q =>
        obtain ⟨e, h, c', hinner⟩ := ih _ (.unary hq)
        exact ⟨_, _, _, .unary hq hinner⟩
      | none =>
        by_cases ho : c.current.kind = .openParen
        · obtain ⟨e, h, c', hinner⟩ := ih _ (.parenthesized hq ho)
          exact ⟨_, _, _, .parenthesized hq ho hinner⟩
        · by_cases ht : c.current.kind = .trueWord ∨ c.current.kind = .falseWord
          · exact ⟨_, _, _, .truth hq ht⟩
          · obtain ⟨ht, hf⟩ := not_or.mp ht
            exact ⟨_, _, _, .number hq ho ht hf⟩
    | chain m e h =>
      cases hq : c.binaryAt? m with
      | none => exact ⟨_, _, _, .done hq⟩
      | some q =>
        cases hn : reached? limit h with
        | some n => exact ⟨_, _, _, .cut hq hn⟩
        | none =>
          obtain ⟨r, h₁, c₁, hright⟩ := ih _ (.right hq hn)
          obtain ⟨e', h', c', hchain⟩ := ih _ (.later hq hn hright)
          exact ⟨_, _, _, .link hq hn hright hchain⟩

/-! ## How high a tree may be -/

/-- There is room for an expression of `h` levels in front of this place. Inside as many open
expressions as there may be, no operand is opened, so that only one level is left, or two if the line
was given up. -/
def Parser.HasRoom (n h : Nat) (p : Parser) : Prop :=
  p.depth + h + 1 ≤ 2 * n ∧ (p.depth = n → h = 1 ∨ h = 2 ∧ p.rest = [])

/-- There is room for what stands in front of the operators. -/
def Task.HasRoom (n : Nat) (p : Parser) : Task → Prop
  | chain _ _ h => p.HasRoom n h
  | _ => True

/-- What is read takes no more levels than there are. -/
def Task.Keeps (n h : Nat) (p p' : Parser) : Task → Prop
  | nested _ => p.depth + h + 2 ≤ 2 * n ∧ (p.depth = n → h = 1 ∧ p'.rest = [])
  | _ => p'.HasRoom n h

theorem Parser.lt_of_reached? {count : Nat} (hn : reached? (some n) count = none) : count < n := by
  refine Nat.lt_of_not_le fun hle => ?_
  rw [reached?_of_le hle] at hn
  exact Option.some_ne_none n hn

theorem Parser.le_of_reached? {k count : Nat} (hn : reached? (some n) count = some k) :
    n ≤ count := by
  refine Nat.le_of_not_lt fun hlt => ?_
  rw [reached?_of_lt hlt] at hn
  exact Option.some_ne_none k hn.symm

theorem Parser.rest_expect_of_nil {kind : TokenKind} (hp : p.rest = []) :
    (p.expect kind).2.rest = [] := by
  have hle := length_expect_le kind p
  rw [hp] at hle
  exact List.length_eq_zero_iff.mp (Nat.le_zero.mp hle)

theorem Parser.rest_ne_nil_of_binaryAt? (hq : p.binaryAt? m = some q) : p.rest ≠ [] := by
  intro hp
  have hlt := length_advance_lt_of_binaryAt? hq
  rw [hp] at hlt
  exact Nat.not_lt_zero _ hlt

theorem Parser.HasRoom.of_keeps (hk : (Task.nested m).Keeps n h p p') (hdepth : p'.depth = p.depth) :
    p'.HasRoom n (h + 1) := by
  obtain ⟨hlevels, hfull⟩ := hk
  refine ⟨by omega, fun hp => .inr ?_⟩
  obtain ⟨rfl, hrest⟩ := hfull (hdepth.symm.trans hp)
  exact ⟨rfl, hrest⟩

/-- **How high a tree may be that is read inside a number of open expressions.** -/
theorem Reads.keeps (hr : Reads (some n) t p e h p') (hn : 3 ≤ n) (hp : p.depth ≤ n)
    (ht : t.HasRoom n p) : t.Keeps n h p p' := by
  induction hr with
  | @shut m k p hreached =>
    have := le_of_reached? hreached
    exact ⟨by omega, fun _ => ⟨rfl, rfl⟩⟩
  | @opened m h h' p p' p'' e e' hopen hfirst hchain ihfirst ihchain =>
    have hlt := lt_of_reached? hopen
    have hdepth' : p'.depth = p.depth + 1 := hfirst.depth_eq
    have hdepth : p''.depth = p.depth + 1 := hchain.depth_eq.trans hdepth'
    -- one more expression is open inside it, which leaves the room that is wanted outside
    obtain ⟨hlevels, -⟩ := ihchain (by omega) (ihfirst hlt trivial)
    exact ⟨by omega, fun hfull => by omega⟩
  | unary hq hinner ih => exact .of_keeps (ih hp trivial) hinner.depth_eq
  | @parenthesized m h p p' e hq hk hinner ih =>
    obtain ⟨hlevels, hfull⟩ := HasRoom.of_keeps (ih hp trivial) hinner.depth_eq
    rw [← depth_expect .closeParen p'] at hlevels hfull
    refine ⟨hlevels, fun hd => (hfull hd).imp_right fun hrest => ?_⟩
    exact ⟨hrest.1, rest_expect_of_nil hrest.2⟩
  | @truth m p hq hk =>
    have hdepth : p.advance.depth = p.depth := rfl
    exact ⟨by omega, fun _ => .inl rfl⟩
  | @number m p hq ho ht hf =>
    have hdepth : (p.expect .number).2.depth = p.depth := depth_expect _ _
    exact ⟨by omega, fun _ => .inl rfl⟩
  | done hq => exact ht
  | @cut m q k h p e hq hreached =>
    have hdepth : (p.abandon k).depth = p.depth := depth_report _ _
    refine ⟨hdepth ▸ ht.1, fun hd => ?_⟩
    exact (ht.2 (hdepth ▸ hd)).imp_right fun hrest => ⟨hrest.1, rfl⟩
  | @link m q h h₁ h' p p₁ p' e r e' hq hopen hright hchain ihright ihchain =>
    have hlt := lt_of_reached? hopen
    have hdepth : p₁.depth = p.depth := hright.depth_eq
    obtain ⟨hlevels, hfull⟩ := ihright hp trivial
    obtain ⟨hleft, hone⟩ := ht
    -- an operator is left, so that the line was not given up
    replace hone (hd : p.depth = n) : h = 1 :=
      (hone hd).resolve_right fun hrest => rest_ne_nil_of_binaryAt? hq hrest.2
    have hadvance : p.advance.depth = p.depth := rfl
    refine ihchain (by omega) ⟨?_, fun hd => .inr ?_⟩
    · by_cases hd : p.depth = n
      · have := hone hd
        omega
      · omega
    · obtain ⟨rfl, hrest⟩ := hfull (hdepth.symm.trans hd)
      obtain rfl := hone (hdepth.symm.trans hd)
      exact ⟨rfl, hrest⟩

/-! ## What is known of every call -/

/-- The cursor is on its line and looks at the token at its index, the end of the line at most, inside
no more open expressions than there may be. -/
structure Cursor.StandsOn (line : String) (c : Cursor) : Prop where
  tokens : c.tokens = tokensOf line
  position : c.position ≤ c.last
  current : c.tokens[c.position]? = some c.current
  depth : c.depth ≤ nestingLimit

theorem Cursor.standsOn_ofString (line : String) : (ofString line).StandsOn line where
  tokens := (tokensOf_eq line).symm
  position := Nat.zero_le _
  current := getElem?_position (Nat.zero_le _)
  depth := Nat.zero_le _

theorem Cursor.StandsOn.advance (hc : c.StandsOn line) (ha : c.Advances c')
    (hdepth : c'.depth ≤ nestingLimit) : c'.StandsOn line where
  tokens := ha.tokens_eq.trans hc.tokens
  position := (ha.position hc.position).2
  current := getElem?_position (ha.position hc.position).2
  depth := hdepth

theorem Cursor.Moves.depth_eq (hm : c.Moves limit t e h c') : c'.depth = c.depth :=
  hm.reads.depth_eq

theorem Call.Makes.advances (hm : a.Makes limit b) : a.cursor.Advances b.cursor := by
  cases hm with
  | first hn => exact .enter _
  | operators hn hfirst => exact (Advances.enter _).trans hfirst.advances
  | unary hq => exact .next (kind_ne_ending_of_unaryAt? hq)
  | parenthesized hq hk => exact .next (kind_ne_ending_of_openParen hk)
  | right hq hn => exact .next (kind_ne_ending_of_binaryAt? hq)
  | later hq hn hright =>
    exact (Advances.next (kind_ne_ending_of_binaryAt? hq)).trans hright.advances

theorem Call.Makes.depth_le (hm : a.Makes (some n) b) (ha : a.cursor.depth ≤ n) :
    b.cursor.depth ≤ n := by
  cases hm with
  | first hn => exact lt_of_reached? hn
  | operators hn hfirst => exact hfirst.depth_eq ▸ lt_of_reached? hn
  | unary hq => exact ha
  | parenthesized hq hk => exact ha
  | right hq hn => exact ha
  | later hq hn hright => exact hright.depth_eq ▸ ha

theorem Call.Makes.counted (hm : a.Makes limit b) (ha : a.task.Counted) : b.task.Counted := by
  cases hm with
  | first hn => trivial
  | operators hn hfirst => exact hfirst.reads.height_eq trivial
  | unary hq => trivial
  | parenthesized hq hk => trivial
  | right hq hn => trivial
  | @later m q h h₁ c c₁ e r hq hn hright =>
    rw [Task.Counted, Expression.height, hright.reads.height_eq trivial, show h = e.height from ha]

/-- What is known of a call before anything is read. -/
structure Call.Sound (line : String) (a : Call) : Prop where
  stands : a.cursor.StandsOn line
  counted : a.task.Counted

theorem Call.Makes.sound (hm : a.Makes (some nestingLimit) b) (ha : a.Sound line) :
    b.Sound line where
  stands := ha.stands.advance hm.advances (hm.depth_le ha.stands.depth)
  counted := hm.counted ha.counted

theorem Call.Sound.inside (ha : a.Sound line)
    (hab : ReflTransGen (Makes (some nestingLimit)) a b) :
    b.Sound line ∧ a.cursor.Advances b.cursor := by
  induction hab with
  | refl => exact ⟨ha, .refl _⟩
  | tail _ hm ih => exact ⟨hm.sound ih.1, ih.2.trans hm.advances⟩

/-- What a call leaves when it returns the expression `e` with the height `h` and the cursor at `c`. -/
structure Call.Leaves (line : String) (a : Call) (e : Expression) (h : Nat) (c : Cursor) : Prop where
  result : a.task.result (some nestingLimit) a.cursor.place = (e, h, c.place)
  stands : c.StandsOn line
  depth : c.depth = a.cursor.depth
  position : a.cursor.position ≤ c.position
  height : h = e.height

theorem Call.Sound.leaves (ha : a.Sound line)
    (hm : a.cursor.Moves (some nestingLimit) a.task e h c) : a.Leaves line e h c where
  result := hm.reads.result_eq
  stands := ha.stands.advance hm.advances (hm.depth_eq ▸ ha.stands.depth)
  depth := hm.depth_eq
  position := (hm.advances.position ha.stands.position).1
  height := hm.reads.height_eq ha.counted

/-- A call is accounted for: it starts on the line and returns, and whatever it returns is right. -/
structure Call.Accounted (line : String) (a : Call) : Prop where
  stands : a.cursor.StandsOn line
  returns : ∃ e h c, a.cursor.Moves (some nestingLimit) a.task e h c
  leaves : ∀ e h c, a.cursor.Moves (some nestingLimit) a.task e h c → a.Leaves line e h c

theorem Call.Sound.accounted (ha : a.Sound line) : a.Accounted line where
  stands := ha.stands
  returns := a.exists_moves _
  leaves _ _ _ hm := ha.leaves hm

theorem Cursor.Moves.levels_le (hm : c.Moves (some nestingLimit) (.nested m) e h c')
    (hc : c.StandsOn line) : c.depth + h + 2 ≤ 2 * nestingLimit :=
  (hm.reads.keeps (by decide) hc.depth trivial).1

/-! ## Several calls -/

/-- Where the cursor of a line stands after calls above the given minimums, and what they returned. -/
inductive Cursor.After (line : String) : List Nat → List Expression → Cursor → Prop
  | start : After line [] [] (ofString line)
  | call {minimums : List Nat} {es : List Expression} {m h : Nat} {e : Expression} {c c' : Cursor}
      (hc : After line minimums es c) (hm : c.Moves (some nestingLimit) (.nested m) e h c') :
      After line (minimums ++ [m]) (es ++ [e]) c'

theorem Cursor.exists_after (line : String) (minimums : List Nat) :
    ∃ es c, After line minimums es c := by
  induction minimums using List.reverseRecOn with
  | nil => exact ⟨_, _, .start⟩
  | append_singleton minimums m ih =>
    obtain ⟨es, c, hc⟩ := ih
    obtain ⟨e, h, c', hm⟩ := Call.exists_moves (some nestingLimit) ⟨.nested m, c⟩
    exact ⟨_, _, hc.call hm⟩

theorem Cursor.After.series_eq (hc : After line minimums es c) :
    (Parser.ofString line).series (some nestingLimit) minimums = (es, c.place) := by
  induction hc with
  | start => rfl
  | @call minimums es m h e c c' _ hm ih =>
    obtain ⟨rfl, -, hplace⟩ : _ ∧ _ ∧ _ := by simpa [Task.result] using hm.reads.result_eq
    rw [series_append, ih]
    simp only [series, hplace]

theorem Cursor.After.stands (hc : After line minimums es c) : c.StandsOn line ∧ c.depth = 0 := by
  induction hc with
  | start => exact ⟨standsOn_ofString line, rfl⟩
  | call _ hm ih =>
    have hdepth := hm.depth_eq.trans ih.2
    exact ⟨ih.1.advance hm.advances (hdepth ▸ Nat.zero_le _), hdepth⟩

theorem Cursor.root_of_moves
    (hm : (Cursor.ofString line).Moves (some nestingLimit) (.nested 0) e h c) :
    e = (ParsedLine.ofString line).root :=
  (congrArg Prod.fst hm.reads.result_eq).symm

/-! ## The functions that go down a tree -/

theorem Expression.le_of_mem_nodes {d : Nat} {x : Nat × Node} (hx : x ∈ e.nodes d) :
    x.1 ≤ d + e.height := by
  induction e generalizing d with
  | literal t =>
    simp only [nodes, List.mem_cons, List.not_mem_nil, or_false] at hx
    rcases hx with rfl | rfl <;> simp [height]
  | unary op e ih =>
    simp only [nodes, List.mem_cons] at hx
    rw [height]
    rcases hx with rfl | rfl | hx
    · omega
    · omega
    · have := ih hx
      omega
  | binary l op r ihl ihr =>
    simp only [nodes, List.mem_cons, List.mem_append, List.cons_append] at hx
    rw [height]
    rcases hx with rfl | hx | rfl | hx
    · omega
    · have := ihl hx
      omega
    · omega
    · have := ihr hx
      omega
  | parenthesized o e c ih =>
    simp only [nodes, List.mem_cons, List.mem_append, List.cons_append, List.not_mem_nil,
      or_false] at hx
    rw [height]
    rcases hx with rfl | rfl | hx | rfl
    · omega
    · omega
    · have := ih hx
      omega
    · omega

theorem Expression.lt_of_mem_nodes_elaborate {d : Nat} {noted : Array Diagnostic}
    {x : Nat × TypedExpression} (hx : x ∈ (e.elaborate noted).1.nodes d) : x.1 < d + e.height := by
  induction e generalizing d noted with
  | literal t =>
    rw [List.mem_singleton.mp hx, height]
    exact Nat.lt_succ_self d
  | unary op e ih =>
    rw [height]
    simp only [elaborate] at hx
    split at hx
    · rcases List.mem_cons.mp hx with rfl | hx
      · simp
      · have := ih hx
        omega
    · -- the operator is left out, so the operand lies where it would
      have := ih hx
      omega
  | binary l op r ihl ihr =>
    rw [height]
    simp only [elaborate] at hx
    split at hx
    · rcases List.mem_append.mp hx with hx | hx
      · rcases List.mem_cons.mp hx with rfl | hx
        · simp
        · have := ihl hx
          omega
      · have := ihr hx
        omega
    · have := ihl hx
      omega
  | parenthesized o e c ih =>
    rw [height]
    rcases List.mem_cons.mp hx with rfl | hx
    · simp
    · have := ih hx
      omega

/-- What goes down a tree goes down fewer than twice as many levels as the limit: the outline to the
tokens, typing to the literals, and evaluation to the literals of what is typed. -/
structure Expression.Bounded (limit : Nat) (e : Expression) : Prop where
  height : e.height + 2 ≤ 2 * limit
  nodes : ∀ x ∈ e.nodes 0, x.1 + 2 ≤ 2 * limit
  typed : ∀ noted, ∀ x ∈ (e.elaborate noted).1.nodes 0, x.1 + 2 < 2 * limit

theorem Expression.bounded_of_height (he : e.height + 2 ≤ 2 * n) : e.Bounded n where
  height := he
  nodes x hx := by
    have := le_of_mem_nodes hx
    omega
  typed noted x hx := by
    have := lt_of_mem_nodes_elaborate hx
    omega

/-- **Every call is accounted for**, whatever stands on the line and however often expressions are read
off it. There is no way down through calls forever. After any calls for expressions above any minimums
no expression is open; and a further one, like all that are made inside it, starts on the line, not in
front of the one around it, and inside no more open expressions than there may be, and returns: with as
many open as before, not behind the end of the line nor in front of where it started, and with the
height of its tree, which the limit bounds. -/
theorem calls_accounted (line : String) :
    (WellFounded fun b a : Call => a.Makes (some nestingLimit) b) ∧
    ∀ minimums : List Nat, (∃ es c, After line minimums es c) ∧
      ∀ es c, After line minimums es c →
        (Parser.ofString line).series (some nestingLimit) minimums = (es, c.place) ∧ c.depth = 0 ∧
        ∀ m : Nat,
          (∀ b, ReflTransGen (Call.Makes (some nestingLimit)) ⟨.nested m, c⟩ b →
            c.position ≤ b.cursor.position ∧ b.Accounted line) ∧
          ∀ e h c', c.Moves (some nestingLimit) (.nested m) e h c' →
            h + 2 ≤ 2 * nestingLimit ∧ e.Bounded nestingLimit := by
  refine ⟨Call.wellFounded_makes _, fun minimums => ⟨exists_after line minimums, ?_⟩⟩
  intro es c hc
  obtain ⟨hstands, hdepth⟩ := hc.stands
  refine ⟨hc.series_eq, hdepth, fun m => ?_⟩
  have htop : Call.Sound line ⟨.nested m, c⟩ := ⟨hstands, trivial⟩
  refine ⟨fun b hb => ?_, fun e h c' hm => ?_⟩
  · obtain ⟨hsound, hadvances⟩ := htop.inside hb
    exact ⟨(hadvances.position hstands.position).1, hsound.accounted⟩
  · have hlevels := hm.levels_le hstands
    rw [hdepth, Nat.zero_add] at hlevels
    exact ⟨hlevels, Expression.bounded_of_height ((htop.leaves hm).height ▸ hlevels)⟩

/-- The bound is reached where 254 parentheses stand around a sum of 256 numbers, of which nothing is
given up. -/
theorem calls_accounted_bracketedSum : ∃ e h c',
    (Cursor.ofString (bracketedSum 254 255)).Moves (some nestingLimit) (.nested 0) e h c' ∧
    h + 2 = 2 * nestingLimit ∧ h = e.height ∧ e.Bounded nestingLimit ∧ c'.depth = 0 ∧
    c'.StandsOn (bracketedSum 254 255) := by
  obtain ⟨-, hall⟩ := calls_accounted (bracketedSum 254 255)
  obtain ⟨-, -, hcall⟩ := (hall []).2 [] _ .start
  obtain ⟨hinside, hbound⟩ := hcall 0
  obtain ⟨-, haccounted⟩ := hinside _ .refl
  obtain ⟨e, h, c', hm⟩ := haccounted.returns
  have hleft := haccounted.leaves e h c' hm
  obtain ⟨-, hheight⟩ := @height_bracketedSum 254 255 (by decide) (by decide)
  have hroot := root_of_moves hm
  obtain ⟨-, hbounded⟩ := hbound e h c' hm
  refine ⟨e, h, c', hm, ?_, hleft.height, hbounded, hleft.depth, hleft.stands⟩
  rw [hleft.height, hroot, hheight]
  decide

end Reckoner
