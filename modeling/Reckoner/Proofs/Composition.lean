import Reckoner.Proofs.Expression.Language
import Reckoner.Proofs.Expression.Relocation
import Reckoner.Proofs.Typing.Soundness

/-!
# Lines that are put together

A line in parentheses is an operand in which nothing is disturbed: its pieces, its tree, its types
and its value are those that it has alone. So what operators between such lines come to depends on
the types and values of the lines alone.

* `Expression.exists_elaborate_moved`: types do not depend on places or on earlier notes.
* `Stands`: a text inside a line is a tree of its own; `Stands.bracketed`, `Stands.unary`,
  `Stands.binary`: how such texts are put together.
* `Clean.stands`: a line with which nothing is wrong stands anywhere.
* **`evaluate_compositional`**: what operators between such lines come to.
-/

namespace Reckoner

open Lexeme Token Expression
open TokenKind (openParen closeParen)

/-! ## Typing in other places -/

theorem Expression.map_moved_zero (e : Expression) : e.map (moved 0) = e :=
  e.map_relocate_id

/-- **Types do not depend on places**: a tree further on has the same types, and its notes, further
on, come behind those that are there. -/
theorem Expression.exists_elaborate_moved (e : Expression) :
    ∃ (typed : TypedExpression) (own : List Diagnostic), ∀ k noted,
      (e.map (moved k)).elaborate noted =
        (typed, noted ++ (own.map (Diagnostic.moved k)).toArray) := by
  obtain ⟨typed, own, h⟩ := e.exists_elaborate_relocate
  exact ⟨typed, own, fun k noted => h (· + k) noted⟩

/-! ## Signs -/

/-- How the operators and parentheses are written. -/
def TokenKind.spelling : TokenKind → String
  | plus => "+"
  | minus => "-"
  | times => "*"
  | slash => "/"
  | percent => "%"
  | caret => "^"
  | openParen => "("
  | closeParen => ")"
  | bang => "!"
  | and => "&&"
  | or => "||"
  | sqrWord => "sqr"
  | sqrtWord => "sqrt"
  | _ => ""

/-- The operators and parentheses. -/
def signKinds : List TokenKind :=
  [.openParen, .closeParen] ++ unaryKinds ++ binaryKinds

/-- The operator or parenthesis of the kind `k` as a piece of a line. -/
def TokenKind.sign (k : TokenKind) : Lexeme :=
  ⟨k, k.spelling.toList⟩

theorem cut_eq_singleton {c : Char} {cs : List Char} {x : Lexeme} (h : first c cs = (x, [])) :
    cut (c :: cs) = [x] := by
  rw [cut_cons, h, cut_nil]

variable {k u b : TokenKind} {position : Nat} {s t : String} {e l r : Expression}

theorem cut_sign (hk : k ∈ signKinds) : cut k.spelling.toList = [k.sign] := by
  cases k
  case plus | minus | times | slash | percent | caret | openParen | closeParen | bang | and | or
      | sqrWord | sqrtWord => exact cut_eq_singleton rfl
  all_goals revert hk; decide

theorem sign_spec (hk : k ∈ signKinds) (position : Nat) :
    k.isSeparator = false ∧ k.sign.diagnostic? position = none := by
  cases k <;> first | exact ⟨rfl, rfl⟩ | exact absurd hk (by decide)

theorem words_sign (hk : k ∈ signKinds) (position : Nat) :
    words position k.spelling.toList = [k.sign.token position] :=
  @words_text k.sign (cut_sign hk) (sign_spec hk 0).1 position

theorem notes_sign (hk : k ∈ signKinds) (position : Nat) :
    notes position k.spelling.toList = [] :=
  @notes_text k.sign (cut_sign hk) (fun n => (sign_spec hk n).2) position

theorem literal_sign (k : TokenKind) (position : Nat) :
    (k.sign.token position).literal = k.spelling :=
  String.ofList_toList

/-! ## Lines that are put together -/

/-- The line in parentheses. -/
def bracketed (s : String) : String :=
  "(" ++ s ++ ")"

/-- The text of `s`, if it starts at `position`, has nothing wrong with it and is the tree `e`. -/
structure Stands (position : Nat) (s : String) (e : Expression) : Prop where
  leaves : e.leaves = words position s.toList
  notes : notes position s.toList = []
  shaped : e.Shaped 0
  proper : e.Proper

/-- The tree of a line in parentheses, which starts at `position`. -/
def bracketedTree (position : Nat) (s : String) (e : Expression) : Expression :=
  .parenthesized (openParen.sign.token position) e
    (closeParen.sign.token (position + 1 + s.utf8ByteSize))

theorem toList_bracketed (s : String) : (bracketed s).toList =
    openParen.spelling.toList ++ (s.toList ++ closeParen.spelling.toList) := by
  simp [bracketed, TokenKind.spelling]

theorem bytes_bracketed (s : String) : bytes (bracketed s).toList = s.utf8ByteSize + 2 := by
  have hopen : "(".utf8ByteSize = 1 := by decide
  have hclose : ")".utf8ByteSize = 1 := by decide
  rw [bytes_toList, bracketed, String.utf8ByteSize_append, String.utf8ByteSize_append]
  omega

theorem apart_openParen (s : List Char) : Apart openParen.spelling.toList s := by
  intro x hx d _
  have hcut : cut openParen.spelling.toList = [openParen.sign] := cut_sign (by decide)
  rw [hcut] at hx
  obtain rfl := Option.some.inj hx
  rfl

theorem apart_closeParen (s : List Char) : Apart s closeParen.spelling.toList :=
  @apart_mark [] ')' .closeParen rfl s

theorem apart_bracketed (s : String) (t : List Char) : Apart (bracketed s).toList t := by
  intro x hx d _
  have hcut : cut closeParen.spelling.toList = [closeParen.sign] := cut_sign (by decide)
  rw [toList_bracketed, cut_append (apart_openParen _), cut_append (apart_closeParen _), hcut,
    ← List.append_assoc, List.getLast?_append] at hx
  obtain rfl := Option.some.inj hx
  rfl

theorem Stands.bracketed (h : Stands (position + 1) s e) :
    Stands position (bracketed s) (bracketedTree position s e) where
  leaves := by
    have hopen : bytes openParen.spelling.toList = 1 := by decide
    rw [toList_bracketed, words_append (apart_openParen _), words_append (apart_closeParen _),
      words_sign (by decide), words_sign (by decide), hopen, bytes_toList, ← h.leaves]
    rfl
  notes := by
    have hopen : bytes openParen.spelling.toList = 1 := by decide
    rw [toList_bracketed, notes_append (apart_openParen _), notes_append (apart_closeParen _),
      notes_sign (by decide), notes_sign (by decide), hopen, h.notes]
    rfl
  shaped := shaped_parenthesized.mpr h.shaped
  proper := ⟨rfl, rfl, h.proper⟩

theorem apart_sign (k : TokenKind) (s : String) :
    Apart k.spelling.toList (Reckoner.bracketed s).toList := by
  rw [toList_bracketed]
  exact @apart_mark _ '(' .openParen rfl _

theorem mem_signKinds_of_unary (hu : u ∈ unaryKinds) : u ∈ signKinds :=
  List.mem_append_left _ (List.mem_append_right _ hu)

theorem mem_signKinds_of_binary (hb : b ∈ binaryKinds) : b ∈ signKinds :=
  List.mem_append_right _ hb

theorem Stands.unary (hu : u ∈ unaryKinds)
    (h : Stands (position + u.spelling.utf8ByteSize + 1) s e) :
    Stands position (u.spelling ++ Reckoner.bracketed s) (.unary (u.sign.token position)
      (bracketedTree (position + u.spelling.utf8ByteSize) s e)) where
  leaves := by
    rw [String.toList_append, words_append (apart_sign u s),
      words_sign (mem_signKinds_of_unary hu), bytes_toList, ← h.bracketed.leaves]
    rfl
  notes := by
    rw [String.toList_append, notes_append (apart_sign u s),
      notes_sign (mem_signKinds_of_unary hu), bytes_toList, h.bracketed.notes]
    rfl
  shaped := by
    obtain ⟨q, hq⟩ := Option.ne_none_iff_exists'.mp (mem_unaryKinds.mp hu)
    exact shaped_unary.mpr ⟨q, hq, Nat.zero_le q, shaped_parenthesized.mpr h.shaped⟩
  proper := ⟨mem_unaryKinds.mp hu, h.bracketed.proper⟩

theorem Stands.binary (hb : b ∈ binaryKinds) (hl : Stands (position + 1) s l)
    (hr : Stands (position + (s.utf8ByteSize + 2) + b.spelling.utf8ByteSize + 1) t r) :
    Stands position (Reckoner.bracketed s ++ (b.spelling ++ Reckoner.bracketed t))
      (.binary (bracketedTree position s l) (b.sign.token (position + (s.utf8ByteSize + 2)))
        (bracketedTree (position + (s.utf8ByteSize + 2) + b.spelling.utf8ByteSize) t r)) where
  leaves := by
    rw [String.toList_append, words_append (apart_bracketed s _), bytes_bracketed,
      String.toList_append, words_append (apart_sign b t), words_sign (mem_signKinds_of_binary hb),
      bytes_toList, ← hl.bracketed.leaves, ← hr.bracketed.leaves]
    rfl
  notes := by
    rw [String.toList_append, notes_append (apart_bracketed s _), bytes_bracketed,
      String.toList_append, notes_append (apart_sign b t), notes_sign (mem_signKinds_of_binary hb),
      bytes_toList, hl.bracketed.notes, hr.bracketed.notes]
    rfl
  shaped := by
    obtain ⟨q, hq⟩ := Option.ne_none_iff_exists'.mp (mem_binaryKinds.mp hb)
    exact shaped_binary.mpr ⟨q, hq, (binaryPrecedence?_bounds hq).1, hl.bracketed.shaped, trivial,
      shaped_parenthesized.mpr hr.shaped⟩
  proper := ⟨mem_binaryKinds.mp hb, hl.bracketed.proper, hr.bracketed.proper⟩

theorem Stands.parser (h : Stands 0 s e) : Parser.ofString s =
    { rest := e.leaves, stop := s.utf8ByteSize, diagnostics := #[] } := by
  rw [Parser.ofString_eq, h.leaves, h.notes]

theorem Stands.analysis (h : Stands 0 s e) (hn : e.height ≤ nestingLimit) :
    Analysis.ofString s =
      { parsed := ⟨e, .ending s.utf8ByteSize, #[]⟩
        typed := (e.elaborate #[]).1
        diagnostics := (e.elaborate #[]).2 } := by
  have hparsed : ParsedLine.ofString s = ⟨e, .ending s.utf8ByteSize, #[]⟩ := by
    rw [ParsedLine.ofString, h.parser, Parser.finish_of_shaped h.shaped h.proper rfl]
    intro n hmem
    obtain rfl : nestingLimit = n := Option.some.inj hmem
    simpa using hn
  rw [Analysis.ofString, hparsed]

/-! ## Lines with which nothing is wrong -/

/-- Nothing is wrong with the line, and it leaves room for two more levels. -/
structure Clean (s : String) : Prop where
  diagnostics : (Analysis.ofString s).diagnostics = #[]
  height : (Analysis.ofString s).parsed.root.height + 2 ≤ nestingLimit

/-- **A line with which nothing is wrong stands anywhere**, with the types that it has alone. -/
theorem Clean.stands (h : Clean s) (position : Nat) :
    ∃ e, Stands position s e ∧ e.height + 2 ≤ nestingLimit ∧
      ∀ noted, e.elaborate noted = ((Analysis.ofString s).typed, noted) := by
  obtain ⟨typed, own, hel⟩ := (ParsedLine.ofString s).root.exists_elaborate_moved
  obtain ⟨more, hmore⟩ := (Parser.ofString s).exists_diagnostics_finish (some nestingLimit)
  have hself : (ParsedLine.ofString s).root.elaborate (ParsedLine.ofString s).diagnostics =
      (typed, (ParsedLine.ofString s).diagnostics ++ (own.map (Diagnostic.moved 0)).toArray) := by
    rw [← hel 0, map_moved_zero]
  have htyped : (Analysis.ofString s).typed = typed := congrArg Prod.fst hself
  have hall : (ParsedLine.ofString s).diagnostics.toList ++ own.map (Diagnostic.moved 0) = [] := by
    have hnone := (congrArg Prod.snd hself).symm.trans h.diagnostics
    simpa using congrArg Array.toList hnone
  obtain ⟨hparsed, hown⟩ := List.append_eq_nil_iff.mp hall
  obtain ⟨hlexer, -⟩ := List.append_eq_nil_iff.mp (hmore.symm.trans hparsed)
  have hquiet : (ParsedLine.ofString s).diagnostics = (Parser.ofString s).diagnostics :=
    Array.toList_inj.mp (hparsed.trans hlexer.symm)
  obtain ⟨hshaped, hproper, hleaves⟩ :=
    Parser.shaped_of_finish rfl (fun t ht => Parser.kind_ofString_ne_ending ht) hquiet
  have hwords : (Parser.ofString s).rest = Lexeme.words 0 s.toList := by rw [Parser.ofString_eq]
  have hnotes : Lexeme.notes 0 s.toList = [] := by simpa [Parser.ofString_eq] using hlexer
  have hkind (t : Token) : (moved position t).kind = t.kind := rfl
  refine ⟨(ParsedLine.ofString s).root.map (moved position), ?stands, ?height, fun noted => ?typed⟩
  case stands =>
    constructor
    · have hmoved := words_add 0 position s.toList
      rw [Nat.zero_add] at hmoved
      rw [leaves_map, hmoved, ← hwords, ← hleaves]
      rfl
    · have hmoved := notes_add 0 position s.toList
      rwa [Nat.zero_add, hnotes] at hmoved
    · exact (shaped_map hkind _).mpr hshaped
    · exact (proper_map hkind _).mpr hproper
  case height =>
    rw [height_map]
    exact h.height
  case typed =>
    rw [hel, htyped, List.map_eq_nil_iff.mp hown]
    simp

/-! ## What lines come to -/

/-- The type of the line. -/
def typeOf (s : String) : ValueType :=
  (Analysis.ofString s).typed.type

/-- The value of the line, or why it has none. -/
def valueOf (s : String) : Except Failure Value :=
  (Analysis.ofString s).typed.evaluate

/-- What the unary operator `u`, which is the first thing in a line, comes to at an operand of this
type and value. -/
def unaryAnswer (u : TokenKind) (type : ValueType) (value : Except Failure Value) :
    Except Failure Answer :=
  match UnaryOverload.find? u type, value with
  | none, _ =>
    .ok (.diagnostics #[⟨⟨0, u.spelling.utf8ByteSize⟩, .undefinedUnary u.spelling type⟩])
  | some _, .error f => .error f
  | some o, .ok v => (o.operation.apply v).map .value

/-- What the binary operator `b`, which starts at `position`, comes to at operands of these types
and values: the first fault from the left, or else the operator applied to both values. -/
def binaryAnswer (b : TokenKind) (position : Nat) (left right : ValueType)
    (leftValue rightValue : Except Failure Value) : Except Failure Answer :=
  match BinaryOverload.find? b left right, leftValue, rightValue with
  | none, _, _ => .ok (.diagnostics
      #[⟨⟨position, b.spelling.utf8ByteSize⟩, .undefinedBinary b.spelling left right⟩])
  | some _, .error f, _ => .error f
  | some _, .ok _, .error f => .error f
  | some o, .ok v, .ok w => (o.operation.apply v w).map .value

theorem elaborate_unary {typed : TypedExpression} {noted : Array Diagnostic}
    (hel : e.elaborate noted = (typed, noted)) :
    (Expression.unary (u.sign.token position) e).elaborate noted =
      match UnaryOverload.find? u typed.type with
      | some o => (.unary o typed, noted)
      | none => (typed, noted.push ⟨⟨position, u.spelling.utf8ByteSize⟩,
          .undefinedUnary u.spelling typed.type⟩) := by
  rw [elaborate, hel, literal_sign, Token.span, literal_sign]
  rfl

theorem elaborate_binary {left right : TypedExpression} {noted : Array Diagnostic}
    (hl : l.elaborate noted = (left, noted)) (hr : r.elaborate noted = (right, noted)) :
    (Expression.binary l (b.sign.token position) r).elaborate noted =
      match BinaryOverload.find? b left.type right.type with
      | some o => (.binary left o right, noted)
      | none => (left, noted.push ⟨⟨position, b.spelling.utf8ByteSize⟩,
          .undefinedBinary b.spelling left.type right.type⟩) := by
  simp only [elaborate, hl, hr, literal_sign, Token.span]
  rfl

theorem elaborate_bracketedTree {typed : TypedExpression}
    (hel : ∀ noted, e.elaborate noted = (typed, noted)) (noted : Array Diagnostic) :
    (bracketedTree position s e).elaborate noted = (.parenthesized typed, noted) := by
  rw [bracketedTree, elaborate, hel]

theorem Clean.evaluate_eq (h : Clean s) : evaluate s = (valueOf s).map .value := by
  rw [evaluate, Analysis.evaluate, h.diagnostics]
  rfl

theorem Clean.evaluate_bracketed (h : Clean s) : evaluate (bracketed s) = evaluate s := by
  obtain ⟨e, hstands, hheight, hel⟩ := h.stands (0 + 1)
  have hline := hstands.bracketed.analysis (by
    simp only [bracketedTree, Expression.height]
    omega)
  rw [h.evaluate_eq, evaluate, hline, Analysis.evaluate, elaborate_bracketedTree hel]
  rfl

theorem Clean.evaluate_unary (h : Clean s) (hu : u ∈ unaryKinds) :
    evaluate (u.spelling ++ bracketed s) = unaryAnswer u (typeOf s) (valueOf s) := by
  obtain ⟨e, hstands, hheight, hel⟩ := h.stands (0 + u.spelling.utf8ByteSize + 1)
  have hline := (Stands.unary hu hstands).analysis (by
    simp only [bracketedTree, Expression.height]
    omega)
  have htype : (TypedExpression.parenthesized (Analysis.ofString s).typed).type = typeOf s := rfl
  rw [evaluate, hline, Analysis.evaluate, elaborate_unary (elaborate_bracketedTree hel #[]), htype]
  unfold unaryAnswer
  cases UnaryOverload.find? u (typeOf s) with
  | none => rfl
  | some o =>
    change (valueOf s >>= o.operation.apply).map Answer.value = _
    cases valueOf s <;> rfl

theorem Clean.evaluate_binary (hs : Clean s) (ht : Clean t) (hb : b ∈ binaryKinds) :
    evaluate (bracketed s ++ (b.spelling ++ bracketed t)) =
      binaryAnswer b (s.utf8ByteSize + 2) (typeOf s) (typeOf t) (valueOf s) (valueOf t) := by
  obtain ⟨l, hl, hlheight, hlel⟩ := hs.stands (0 + 1)
  obtain ⟨r, hr, hrheight, hrel⟩ :=
    ht.stands (0 + (s.utf8ByteSize + 2) + b.spelling.utf8ByteSize + 1)
  have hline := (Stands.binary hb hl hr).analysis (by
    simp only [bracketedTree, Expression.height]
    omega)
  have htypes : (TypedExpression.parenthesized (Analysis.ofString s).typed).type = typeOf s := rfl
  have htypet : (TypedExpression.parenthesized (Analysis.ofString t).typed).type = typeOf t := rfl
  rw [evaluate, hline, Analysis.evaluate, elaborate_binary (elaborate_bracketedTree hlel #[])
    (elaborate_bracketedTree hrel #[]), htypes, htypet, Nat.zero_add]
  unfold binaryAnswer
  cases BinaryOverload.find? b (typeOf s) (typeOf t) with
  | none => rfl
  | some o =>
    change (valueOf s >>= fun v => valueOf t >>= o.operation.apply v).map Answer.value = _
    cases valueOf s <;> cases valueOf t <;> rfl

theorem typeOf_eq {v : Value} (h : valueOf s = .ok v) : typeOf s = v.type := by
  have hsound := Analysis.yields_typed s
  rw [show (Analysis.ofString s).typed.evaluate = .ok v from h] at hsound
  exact hsound.symm

theorem binaryAnswer_zero {m : Int32} (position : Nat) :
    binaryAnswer .slash position .integer .integer (.ok (.integer m)) (.ok (.integer 0)) =
        .error (.fault ⟨.quotient, m⟩) ∧
      binaryAnswer .percent position .integer .integer (.ok (.integer m)) (.ok (.integer 0)) =
        .error (.fault ⟨.remainder, m⟩) :=
  ⟨rfl, rfl⟩

/-- **What lines that are put together come to** is a matter of what the lines come to alone. With
nothing wrong in `s` and `t`, parentheses change nothing, and an operator in front of `s` or between
`s` and `t` comes to what it makes of their types and values; if it is not defined at the types,
that is the only complaint, and it covers the operator. -/
theorem evaluate_compositional (s t : String) (hs : Clean s) (ht : Clean t) :
    evaluate s = (valueOf s).map .value ∧ evaluate t = (valueOf t).map .value ∧
    evaluate (bracketed s) = evaluate s ∧
    (∀ u ∈ unaryKinds,
      evaluate (u.spelling ++ bracketed s) = unaryAnswer u (typeOf s) (valueOf s)) ∧
    (∀ b ∈ binaryKinds, evaluate (bracketed s ++ (b.spelling ++ bracketed t)) =
      binaryAnswer b (s.utf8ByteSize + 2) (typeOf s) (typeOf t) (valueOf s) (valueOf t)) ∧
    ∀ m, valueOf s = .ok (.integer m) → valueOf t = .ok (.integer 0) →
      evaluate (bracketed s ++ ("/" ++ bracketed t)) = .error (.fault ⟨.quotient, m⟩) ∧
      evaluate (bracketed s ++ ("%" ++ bracketed t)) = .error (.fault ⟨.remainder, m⟩) := by
  refine ⟨hs.evaluate_eq, ht.evaluate_eq, hs.evaluate_bracketed, fun u hu => hs.evaluate_unary hu,
    fun b hb => hs.evaluate_binary ht hb, fun m hm hzero => ?_⟩
  have hquotient := hs.evaluate_binary ht (b := .slash) (by decide)
  have hremainder := hs.evaluate_binary ht (b := .percent) (by decide)
  rw [typeOf_eq hm, typeOf_eq hzero, hm, hzero] at hquotient hremainder
  obtain ⟨hslash, hpercent⟩ := @binaryAnswer_zero m (s.utf8ByteSize + 2)
  exact ⟨hquotient.trans hslash, hremainder.trans hpercent⟩

/-- The sum of two numbers, negated, taken times itself and divided by zero; and a sum and a truth value,
which have no conjunction, as is said of the sign between them. -/
theorem evaluate_sum_and_truth :
    evaluate (bracketed "2 + 3") = .ok (.value (.integer 5)) ∧
    evaluate ("-" ++ bracketed "2 + 3") = .ok (.value (.integer (-5))) ∧
    evaluate (bracketed "2 + 3" ++ ("*" ++ bracketed "2 + 3")) = .ok (.value (.integer 25)) ∧
    evaluate (bracketed "2 + 3" ++ ("/" ++ bracketed "0")) = .error (.fault ⟨.quotient, 5⟩) ∧
    evaluate (bracketed "2 + 3" ++ ("&&" ++ bracketed "true")) =
      .ok (.diagnostics #[⟨⟨7, 2⟩, .undefinedBinary "&&" .integer .boolean⟩]) := by
  have hs : Clean "2 + 3" := ⟨by decide +kernel, by decide +kernel⟩
  have hz : Clean "0" := ⟨by decide +kernel, by decide +kernel⟩
  have ht : Clean "true" := ⟨by decide +kernel, by decide +kernel⟩
  have hsum : valueOf "2 + 3" = .ok (.integer 5) := by with_unfolding_all rfl
  have hzero : valueOf "0" = .ok (.integer 0) := by with_unfolding_all rfl
  have htruth : typeOf "true" = .boolean := by decide +kernel
  have htype : typeOf "2 + 3" = .integer := typeOf_eq hsum
  obtain ⟨hself, -, hbracketed, hunary, hbinary, -⟩ := evaluate_compositional "2 + 3" "2 + 3" hs hs
  obtain ⟨-, -, -, -, -, hfault⟩ := evaluate_compositional "2 + 3" "0" hs hz
  obtain ⟨-, -, -, -, hconjunction, -⟩ := evaluate_compositional "2 + 3" "true" hs ht
  have hminus := hunary .minus (by decide)
  have htimes := hbinary .times (by decide)
  have hand := hconjunction .and (by decide)
  rw [htype, hsum] at hminus htimes
  rw [htype, htruth] at hand
  rw [hsum] at hself
  exact ⟨hbracketed.trans hself, hminus, htimes, (hfault 5 hsum hzero).1, hand⟩

end Reckoner
