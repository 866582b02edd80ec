import Reckoner.Proofs.Token.Segmentation

/-!
# One lexer, asked in two ways

The two ways to ask a lexer for tokens share its place, but only one of them comes to an end. In
whatever order it is asked, the pieces of its line are handed out once and in their order. The end of
the line stands behind them for whoever goes on with `next`; `next?` hands it out once, no matter how
often `next` has met it.

* `Lexer.Request`, `Lexer.replies`: what a lexer can be asked for, and what it replies.
* `Lexer.HasRead`: which pieces of a line lie behind a lexer, and what was noted about them.
* `Lexer.HandsOut`: what is handed out between two places; `HandsOut.next`, `HandsOut.next?`,
  `HandsOut.drain` say this of one request, `HandsOut.replies` of any number of them.
* **`Lexer.replies_interleaved`**: what has been handed out decides what comes next.
-/

namespace Reckoner

open Lexeme

namespace Lexer

/-- What a lexer can be asked for: a token, in either way, all tokens to come, or the notes so far. -/
inductive Request where
  | next
  | next?
  | drain
  | diagnostics

/-- What a lexer replies to a request. -/
inductive Reply where
  | next (token : Token)
  | next? (token : Option Token)
  | drain (tokens : Array Token)
  | diagnostics (diagnostics : Array Diagnostic)

/-- The reply to a request, and the place behind it. -/
def reply (l : Lexer) : Request → Reply × Lexer
  | .next => (.next l.next.1, l.next.2)
  | .next? => (.next? l.next?.1, l.next?.2)
  | .drain => (.drain l.drain.1, l.drain.2)
  | .diagnostics => (.diagnostics l.diagnostics, l)

/-- The replies to requests, one behind the other, and the place behind them. -/
def replies (l : Lexer) : List Request → List Reply × Lexer
  | [] => ([], l)
  | request :: later =>
    let first := l.reply request
    let behind := first.2.replies later
    (first.1 :: behind.1, behind.2)

namespace Reply

/-- The tokens that are handed out with a reply. -/
def tokens : Reply → List Token
  | next t => [t]
  | next? t => t.toList
  | drain ts => ts.toList
  | diagnostics _ => []

/-- The tokens among them that are handed out in the way that comes to an end. -/
def iterated : Reply → List Token
  | next _ => []
  | next? t => t.toList
  | drain ts => ts.toList
  | diagnostics _ => []

end Reply

/-- The tokens without those that stand for the end of the line. -/
def withoutEndings (ts : List Token) : List Token :=
  ts.filter fun t => t.kind ≠ .ending

/-- How many of the tokens stand for the end of the line. -/
def endings (ts : List Token) : Nat :=
  ts.countP fun t => t.kind = .ending

variable {line : String} {xs ys : List (Lexeme × Nat)} {l mid after : Lexer} {ts us : List Token}
  {t : Token}

/-! ## What lies behind a lexer -/

/-- The pieces `xs` of the line lie behind the lexer and the others before it. It has noted what is
wrong with `xs`, and it ends only at the end of the line. -/
structure HasRead (line : String) (xs : List (Lexeme × Nat)) (l : Lexer) : Prop where
  pieces : placed 0 (cut line.toList) = xs ++ placed l.position (cut l.rest)
  stop : l.position + bytes l.rest = line.utf8ByteSize
  notes : l.diagnostics.toList = xs.flatMap fun x => (x.1.diagnostic? x.2).toList
  rest_eq : l.ended = true → l.rest = []

theorem hasRead_ofString (line : String) : HasRead line [] (ofString line) where
  pieces := rfl
  stop := by simp [ofString, bytes_toList]
  notes := rfl
  rest_eq := by simp [ofString]

theorem HasRead.with_ended (h : HasRead line xs l) {b : Bool} (hb : b = true → l.rest = []) :
    HasRead line xs { l with ended := b } :=
  ⟨h.pieces, h.stop, h.notes, hb⟩

theorem HasRead.next_of_cons (h : HasRead line xs l) {c : Char} {cs : List Char}
    (hrest : l.rest = c :: cs) : l.next.1 = (first c cs).1.token l.position ∧
      HasRead line (xs ++ [((first c cs).1, l.position)]) l.next.2 := by
  have hplace : l.next.2.position = l.position + bytes (first c cs).1.text := by
    simp [next, hrest, Span.stop, Token.span, Lexeme.token, bytes]
  have hended : l.next.2.ended = false := by
    have hne := mt h.rest_eq (by simp [hrest])
    simpa [next, hrest] using hne
  refine ⟨by simp [next, hrest], ?_, ?_, ?_, ?_⟩
  · rw [h.pieces, hrest, cut_cons, placed, hplace, rest_next_of_cons hrest, List.append_assoc,
      List.singleton_append]
  · rw [hplace, rest_next_of_cons hrest, Nat.add_assoc, ← bytes_append, first_append, ← hrest,
      h.stop]
  · simp [next, hrest, h.notes]
  · simp [hended]

/-! ## What is handed out -/

theorem withoutEndings_append (ts us : List Token) :
    withoutEndings (ts ++ us) = withoutEndings ts ++ withoutEndings us :=
  List.filter_append ..

theorem endings_append (ts us : List Token) : endings (ts ++ us) = endings ts + endings us :=
  List.countP_append

theorem endings_of_kind_ne (ht : t.kind ≠ .ending) : endings [t] = 0 := by
  simp [endings, ht]

theorem withoutEndings_of_kind_ne (ht : t.kind ≠ .ending) : withoutEndings [t] = [t] := by
  simp [withoutEndings, ht]

/-- Between the two places the lexer hands out `ts`: pieces of the line that lie before it at first
and behind it then, in their order, and ends of the line. -/
def HandsOut (line : String) (l : Lexer) (ts : List Token) (after : Lexer) : Prop :=
  ∀ xs, HasRead line xs l →
    ∃ ys, HasRead line (xs ++ ys) after ∧ withoutEndings ts = ys.map fun y => y.1.token y.2

/-- As `HandsOut`, where an end of the line is handed out when the lexer ends and never else. -/
def Iterates (line : String) (l : Lexer) (ts : List Token) (after : Lexer) : Prop :=
  HandsOut line l ts after ∧ endings ts + l.ended.toNat = after.ended.toNat

theorem HandsOut.refl (line : String) (l : Lexer) : HandsOut line l [] l :=
  fun xs h => ⟨[], by rwa [List.append_nil], rfl⟩

theorem HandsOut.trans (h₁ : HandsOut line l ts mid) (h₂ : HandsOut line mid us after) :
    HandsOut line l (ts ++ us) after := by
  intro xs h
  obtain ⟨ys, hmid, hts⟩ := h₁ xs h
  obtain ⟨zs, hafter, hus⟩ := h₂ (xs ++ ys) hmid
  refine ⟨ys ++ zs, ?_, ?_⟩
  · rwa [← List.append_assoc]
  · rw [withoutEndings_append, hts, hus, List.map_append]

theorem Iterates.refl (line : String) (l : Lexer) : Iterates line l [] l :=
  ⟨.refl line l, Nat.zero_add _⟩

theorem Iterates.trans (h₁ : Iterates line l ts mid) (h₂ : Iterates line mid us after) :
    Iterates line l (ts ++ us) after := by
  refine ⟨h₁.1.trans h₂.1, ?_⟩
  rw [endings_append, ← h₂.2, ← h₁.2]
  omega

/-- `next` hands out a piece or meets the end of the line, and goes on with either. -/
theorem HandsOut.next (line : String) (l : Lexer) : HandsOut line l [l.next.1] l.next.2 := by
  intro xs h
  cases hrest : l.rest with
  | nil =>
    rw [next_of_nil hrest]
    exact ⟨[], by rwa [List.append_nil], rfl⟩
  | cons c cs =>
    obtain ⟨htoken, hread⟩ := h.next_of_cons hrest
    refine ⟨_, hread, ?_⟩
    rw [htoken, withoutEndings_of_kind_ne (kind_first_ne_ending c cs)]
    rfl

theorem ended_next (l : Lexer) : l.next.2.ended = l.ended := by
  cases hrest : l.rest <;> simp [Lexer.next, hrest]

theorem next?_of_ended (h : l.ended = true) : l.next? = (none, l) := by
  simp [next?, h]

theorem next?_of_not_ended (h : l.ended = false) :
    l.next? = (some l.next.1, { l.next.2 with ended := l.rest.isEmpty }) := by
  simp [next?, h]

/-- `next?` hands out what `next` does, and ends with the end of the line. -/
theorem Iterates.next? (line : String) (l : Lexer) :
    Iterates line l l.next?.1.toList l.next?.2 := by
  cases hended : l.ended with
  | true =>
    rw [next?_of_ended hended]
    exact .refl line l
  | false =>
    rw [next?_of_not_ended hended]
    constructor
    · intro xs h
      obtain ⟨ys, hread, hts⟩ := HandsOut.next line l xs h
      refine ⟨ys, hread.with_ended fun hempty => ?_, hts⟩
      have hnil := List.isEmpty_iff.mp hempty
      rwa [next_of_nil hnil]
    · cases hrest : l.rest with
      | nil => simp [next_of_nil hrest, hended, endings, Token.ending, Token.missing]
      | cons c cs =>
        have hkind : l.next.1.kind ≠ .ending := by
          simpa [Lexer.next, hrest, Lexeme.token] using kind_first_ne_ending c cs
        simp [endings_of_kind_ne hkind, hended]

theorem Iterates.drain (line : String) (l : Lexer) (read : Array Token) :
    (∃ ts, (l.drain read).1.toList = read.toList ++ ts ∧ Iterates line l ts (l.drain read).2) ∧
      (l.drain read).2.ended = true := by
  induction l, read using Lexer.drain.induct with
  | case1 l read after hnext =>
    have hended : l.ended = true := by
      by_contra h
      simp [next?_of_not_ended (Bool.not_eq_true _ ▸ h)] at hnext
    obtain rfl : l = after := by simpa [next?_of_ended hended] using hnext
    rw [drain_of_none hnext]
    exact ⟨⟨[], (List.append_nil _).symm, .refl line l⟩, hended⟩
  | case2 l read token after hnext ih =>
    obtain ⟨⟨ts, hts, hmore⟩, hended⟩ := ih
    have hfirst : Iterates line l [token] after := by
      simpa [hnext] using Iterates.next? line l
    rw [drain_of_some hnext]
    refine ⟨⟨token :: ts, ?_, hfirst.trans hmore⟩, hended⟩
    rw [hts, Array.toList_push, List.append_assoc, List.singleton_append]

/-- **What one request hands out** goes on where the lexer stands, and only `next?` and `drain` end
it. -/
theorem HandsOut.reply (line : String) (l : Lexer) (r : Request) :
    HandsOut line l (l.reply r).1.tokens (l.reply r).2 ∧
      endings (l.reply r).1.iterated + l.ended.toNat = (l.reply r).2.ended.toNat := by
  cases r with
  | next => exact ⟨.next line l, by simp [Lexer.reply, Reply.iterated, endings, ended_next]⟩
  | next? => exact Iterates.next? line l
  | drain =>
    obtain ⟨⟨ts, hts, hread⟩, -⟩ := Iterates.drain line l #[]
    obtain rfl : l.drain.1.toList = ts := by simpa using hts
    exact hread
  | diagnostics => exact Iterates.refl line l

theorem HandsOut.replies (line : String) (l : Lexer) (requests : List Request) :
    HandsOut line l ((l.replies requests).1.flatMap Reply.tokens) (l.replies requests).2 ∧
      endings ((l.replies requests).1.flatMap Reply.iterated) + l.ended.toNat =
        (l.replies requests).2.ended.toNat := by
  induction requests generalizing l with
  | nil => exact Iterates.refl line l
  | cons r later ih =>
    obtain ⟨hfirst, hended⟩ := HandsOut.reply line l r
    obtain ⟨hlater, hended'⟩ := ih (l.reply r).2
    simp only [Lexer.replies, List.flatMap_cons]
    refine ⟨hfirst.trans hlater, ?_⟩
    rw [endings_append, ← hended', ← hended]
    omega

/-! ## What comes next -/

section Next

variable (h : HasRead line xs l)
include h

theorem HasRead.next_eq :
    l.next.1 = (((placed 0 (cut line.toList)).map fun x => x.1.token x.2)[xs.length]?).getD
      (.ending line.utf8ByteSize) := by
  rw [h.pieces]
  cases hrest : l.rest with
  | nil =>
    have hstop : l.position = line.utf8ByteSize := by simpa [hrest, bytes] using h.stop
    simp [next_of_nil hrest, placed, hstop]
  | cons c cs => simp [(h.next_of_cons hrest).1, cut_cons, placed]

theorem HasRead.drain_eq (hended : l.ended = false) :
    l.drain.1.toList = ((placed 0 (cut line.toList)).map fun x => x.1.token x.2).drop xs.length ++
      [.ending line.utf8ByteSize] := by
  obtain ⟨hread, -⟩ := l.drain_eq #[] hended
  rw [hread, h.stop, h.pieces, List.map_append, List.drop_left' (List.length_map ..)]
  rfl

theorem HasRead.diagnostics_eq :
    l.diagnostics.toList = (xs.map fun x => x.1.token x.2).flatMap Token.complaints := by
  have hcomplaints : ∀ x ∈ xs, (x.1.token x.2).complaints = (x.1.diagnostic? x.2).toList := by
    intro x hx
    have hmem : x ∈ placed 0 (cut line.toList) := by
      rw [h.pieces]
      exact List.mem_append_left _ hx
    exact complaints_token (inClass_of_mem_cut (mem_of_mem_placed hmem)) x.2
  rw [h.notes, List.flatMap_map, List.flatMap_congr hcomplaints]

end Next

theorem withoutEndings_drain (line : String) :
    (ofString line).drain.1.toList =
      withoutEndings (ofString line).drain.1.toList ++ [.ending line.utf8ByteSize] ∧
    withoutEndings (ofString line).drain.1.toList =
      (placed 0 (cut line.toList)).map fun x => x.1.token x.2 := by
  have hread := (hasRead_ofString line).drain_eq rfl
  rw [List.length_nil, List.drop_zero] at hread
  have hpieces : withoutEndings (ofString line).drain.1.toList =
      (placed 0 (cut line.toList)).map fun x => x.1.token x.2 := by
    rw [hread, withoutEndings_append]
    refine (List.append_nil _).trans (List.filter_eq_self.mpr fun t ht => ?_)
    obtain ⟨x, hx, rfl⟩ := List.mem_map.mp ht
    exact decide_eq_true (kind_ne_ending (mem_of_mem_placed hx))
  exact ⟨by rw [hpieces, hread], hpieces⟩

/-- **However a lexer is asked, it hands out the tokens of its line once and in their order.** What
was handed out so far, by `next`, `next?` and `drain` together, is the front of what a new lexer
hands out; `next` goes on behind it, and with the end of the line when all is handed out. It ends
nothing for `next?`, which hands out one end of the line in all and nothing behind that. The notes
are those about what was handed out. -/
theorem replies_interleaved (line : String) :
    let tokens := withoutEndings (ofString line).drain.1.toList
    let ending := Token.ending line.utf8ByteSize
    (ofString line).drain.1.toList = tokens ++ [ending] ∧
    ∀ requests : List Request,
      let replied := ((ofString line).replies requests).1
      let l := ((ofString line).replies requests).2
      let handed := withoutEndings (replied.flatMap Reply.tokens)
      let ended := endings (replied.flatMap Reply.iterated)
      handed <+: tokens ∧
      l.next.1 = tokens[handed.length]?.getD ending ∧
      l.next.2.next?.1.isSome = l.next?.1.isSome ∧
      l.next?.1 = (if ended = 0 then some l.next.1 else none) ∧
      l.drain.1.toList = (if ended = 0 then tokens.drop handed.length ++ [ending] else []) ∧
      ended + endings l.drain.1.toList = 1 ∧
      l.diagnostics.toList = handed.flatMap Token.complaints := by
  intro tokens ending
  obtain ⟨hfresh, hpieces⟩ := withoutEndings_drain line
  refine ⟨hfresh, fun requests => ?_⟩
  intro replied l handed ended
  obtain ⟨hhands, hcount⟩ := HandsOut.replies line (ofString line) requests
  obtain ⟨xs, hread, hhanded⟩ := hhands [] (hasRead_ofString line)
  rw [List.nil_append] at hread
  have hhanded : handed = xs.map fun x => x.1.token x.2 := hhanded
  have hlength : handed.length = xs.length := by rw [hhanded, List.length_map]
  have hended : ended = l.ended.toNat := hcount
  refine ⟨?front, ?next, ?unended, ?next?, ?drain, ?once, ?notes⟩
  case front =>
    rw [hhanded, show tokens = _ from hpieces, hread.pieces, List.map_append]
    exact List.prefix_append _ _
  case next =>
    rw [hlength, show tokens = _ from hpieces]
    exact hread.next_eq
  case unended =>
    have hsame := ended_next l
    cases h : l.ended with
    | true => rw [next?_of_ended h, next?_of_ended (hsame.trans h)]
    | false => rw [next?_of_not_ended h, next?_of_not_ended (hsame.trans h)]; rfl
  case next? =>
    cases h : l.ended with
    | true => simp [next?_of_ended h, hended, h]
    | false => simp [next?_of_not_ended h, hended, h]
  case drain =>
    cases h : l.ended with
    | true => simp [drain_of_none (next?_of_ended h), hended, h]
    | false =>
      rw [hread.drain_eq h, hended, h, hlength, show tokens = _ from hpieces]
      rfl
  case once =>
    obtain ⟨⟨ts, hts, -, hone⟩, hlast⟩ := Iterates.drain line l #[]
    obtain rfl : l.drain.1.toList = ts := by simpa using hts
    rw [hlast, ← hended] at hone
    exact (Nat.add_comm _ _).trans hone
  case notes =>
    rw [hhanded]
    exact hread.diagnostics_eq

/-- An end of the line that `next` has met is still to come for `next?`, once. -/
example :
    ((ofString "1 ").replies [.next, .next, .next, .next?, .next?, .next, .drain]).1.map
      (fun r => r.tokens.map Token.kind) =
    [[.number], [.blank], [.ending], [.ending], [], [.ending], []] := by
  decide +kernel

end Lexer

end Reckoner
