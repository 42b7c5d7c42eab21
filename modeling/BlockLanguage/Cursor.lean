/-
**Reading a token list from front to back.**

The tokens of a parse always end in a mark of the end of the input; where the list has none at its
end, one is added. A cursor stands at a token: it holds the tokens ahead up to the first mark, that
mark, and whatever is behind it. No reading goes past the first mark.

* `remaining_ofTokens`: a fresh cursor has the whole completed list ahead.
* `Passes`: one cursor is another after the tokens between them.
-/

import BlockLanguage.ParseError

namespace BlockLanguage

/-- The tokens with a mark of the end at their end, at the place of the last token if one has to be
added. -/
def Token.complete (tokens : List Token) : List Token :=
  match tokens.getLast? with
  | none => [endOfInput .nowhere]
  | some last => if last.isEndOfInput then tokens else tokens ++ [endOfInput last.span]

/-- Among completed tokens there is a mark of the end. -/
theorem Token.exists_isEndOfInput_complete (tokens : List Token) :
    ∃ token ∈ complete tokens, token.isEndOfInput = true := by
  unfold complete
  split
  · exact ⟨_, List.mem_singleton.mpr rfl, isEndOfInput_endOfInput _⟩
  · next last found =>
    split
    · next marked => exact ⟨last, List.mem_of_getLast? found, marked⟩
    · exact ⟨endOfInput last.span, by simp, isEndOfInput_endOfInput _⟩

/-- A place in a completed token list. -/
structure Cursor where
  /-- The index of the token that the cursor stands at. -/
  position : Nat
  /-- The tokens ahead up to the first mark of the end. -/
  live : List Token
  /-- The first mark of the end. -/
  sentinel : Token
  /-- The tokens behind that mark. -/
  beyond : List Token
  live_open : ∀ token ∈ live, token.isEndOfInput = false
  sentinel_closes : sentinel.isEndOfInput = true
  deriving DecidableEq

namespace Cursor

private theorem dropWhile_ne_nil {tokens : List Token}
    (marked : ∃ token ∈ tokens, token.isEndOfInput = true) :
    tokens.dropWhile (!·.isEndOfInput) ≠ [] := by
  obtain ⟨token, member, closes⟩ := marked
  induction tokens with
  | nil => cases member
  | cons head more ih =>
    rw [List.dropWhile_cons]
    split
    · next opened =>
      rcases List.mem_cons.mp member with rfl | tail
      · simp [closes] at opened
      · exact ih tail
    · exact List.cons_ne_nil _ _

private theorem isEndOfInput_of_dropWhile {tokens : List Token} {first : Token} {more : List Token}
    (found : tokens.dropWhile (!·.isEndOfInput) = first :: more) : first.isEndOfInput = true := by
  have stops := List.head?_dropWhile_not (!·.isEndOfInput) tokens
  rw [found] at stops
  simpa using stops

/-- The cursor at the front of a token list. -/
def ofTokens (tokens : List Token) : Cursor :=
  match found : (Token.complete tokens).dropWhile (!·.isEndOfInput) with
  | [] => absurd found (dropWhile_ne_nil (Token.exists_isEndOfInput_complete tokens))
  | sentinel :: beyond =>
    { position := 0
      live := (Token.complete tokens).takeWhile (!·.isEndOfInput)
      sentinel
      beyond
      live_open := fun token member => by
        have opened := List.all_takeWhile (p := (!·.isEndOfInput)) (l := Token.complete tokens)
        simpa using List.all_eq_true.mp opened token member
      sentinel_closes := isEndOfInput_of_dropWhile found }

/-- The token that the cursor stands at. -/
def front (cursor : Cursor) : Token := cursor.live.headD cursor.sentinel

/-- Whether the cursor stands at the mark of the end. -/
def atEnd (cursor : Cursor) : Bool := cursor.live.isEmpty

/-- The tokens ahead, the one at the cursor included. -/
def remaining (cursor : Cursor) : List Token := cursor.live ++ cursor.sentinel :: cursor.beyond

/-- The cursor one token further on; at the mark of the end it stays. -/
def advance : Cursor → Cursor
  | ⟨position, [], sentinel, beyond, live_open, sentinel_closes⟩ =>
    ⟨position, [], sentinel, beyond, live_open, sentinel_closes⟩
  | ⟨position, _ :: more, sentinel, beyond, live_open, sentinel_closes⟩ =>
    ⟨position + 1, more, sentinel, beyond,
      fun token member => live_open token (List.mem_cons_of_mem _ member), sentinel_closes⟩

/-- The error of a cause that lies in the token at the cursor. -/
def error (cursor : Cursor) (cause : ParseError.Cause) (help : Option String) : ParseError :=
  ⟨cause, cursor.position, cursor.front.span, help⟩

/-- The error of a token that is not what the grammar expects there. -/
def unexpected (cursor : Cursor) (expected : String) : ParseError :=
  if cursor.atEnd then cursor.error (.unexpectedEndOfInput expected) none
  else cursor.error (.unexpectedToken expected cursor.front.lexeme) none

/-- A fresh cursor has all tokens ahead. -/
theorem remaining_ofTokens (tokens : List Token) :
    (ofTokens tokens).remaining = Token.complete tokens := by
  unfold ofTokens remaining
  split
  · next none => exact absurd none (dropWhile_ne_nil (Token.exists_isEndOfInput_complete tokens))
  · next sentinel beyond found =>
    show (Token.complete tokens).takeWhile _ ++ sentinel :: beyond = Token.complete tokens
    rw [← found, List.takeWhile_append_dropWhile]

/-- A fresh cursor stands at the first token. -/
theorem position_ofTokens (tokens : List Token) : (ofTokens tokens).position = 0 := by
  unfold ofTokens
  split
  · next none => exact absurd none (dropWhile_ne_nil (Token.exists_isEndOfInput_complete tokens))
  · rfl

/-- The mark of the end is a mark of the end, and no token before it is. -/
theorem isEndOfInput_front (cursor : Cursor) : cursor.front.isEndOfInput = cursor.atEnd := by
  obtain ⟨position, live, sentinel, beyond, live_open, sentinel_closes⟩ := cursor
  cases live with
  | nil => simpa [front, atEnd] using sentinel_closes
  | cons token more => simpa [front, atEnd] using live_open token List.mem_cons_self

/-! ### One cursor behind another -/

/-- The second cursor is the first one after some tokens. -/
structure Passes (first : Cursor) (passed : List Token) (second : Cursor) : Prop where
  live : first.live = passed ++ second.live
  position : second.position = first.position + passed.length
  sentinel : second.sentinel = first.sentinel
  beyond : second.beyond = first.beyond

/-- The second cursor is the first one or stands behind it. -/
def Reaches (first second : Cursor) : Prop := ∃ passed, first.Passes passed second

namespace Passes

theorem refl (cursor : Cursor) : cursor.Passes [] cursor := ⟨rfl, rfl, rfl, rfl⟩

theorem trans {first second third : Cursor} {passed passed' : List Token}
    (before : first.Passes passed second) (behind : second.Passes passed' third) :
    first.Passes (passed ++ passed') third where
  live := by rw [before.live, behind.live, List.append_assoc]
  position := by rw [behind.position, before.position, List.length_append, Nat.add_assoc]
  sentinel := behind.sentinel.trans before.sentinel
  beyond := behind.beyond.trans before.beyond

/-- The tokens ahead are those passed and those ahead from there on. -/
theorem remaining_eq {first second : Cursor} {passed : List Token}
    (passes : first.Passes passed second) : first.remaining = passed ++ second.remaining := by
  rw [remaining, remaining, passes.live, passes.sentinel, passes.beyond, List.append_assoc]

end Passes

/-- An advance passes the token at the cursor, unless that is the mark of the end. -/
theorem passes_advance (cursor : Cursor) : cursor.Passes (cursor.live.take 1) cursor.advance := by
  obtain ⟨position, live, sentinel, beyond, live_open, sentinel_closes⟩ := cursor
  cases live with
  | nil => exact ⟨rfl, rfl, rfl, rfl⟩
  | cons token more => exact ⟨rfl, rfl, rfl, rfl⟩

namespace Reaches

theorem refl (cursor : Cursor) : cursor.Reaches cursor := ⟨[], .refl cursor⟩

theorem trans {first second third : Cursor} (before : first.Reaches second)
    (behind : second.Reaches third) : first.Reaches third :=
  let ⟨_, passes⟩ := before
  let ⟨_, passes'⟩ := behind
  ⟨_, passes.trans passes'⟩

theorem advance (cursor : Cursor) : cursor.Reaches cursor.advance := ⟨_, passes_advance cursor⟩

theorem length_le {first second : Cursor} (reaches : first.Reaches second) :
    second.live.length ≤ first.live.length := by
  obtain ⟨passed, passes⟩ := reaches
  rw [passes.live, List.length_append]
  exact Nat.le_add_left _ _

end Reaches

theorem length_advance_lt {cursor : Cursor} (ahead : cursor.live ≠ []) :
    cursor.advance.live.length < cursor.live.length := by
  obtain ⟨position, live, sentinel, beyond, live_open, sentinel_closes⟩ := cursor
  cases live with
  | nil => exact absurd rfl ahead
  | cons token more => exact Nat.lt_succ_self _

end Cursor

end BlockLanguage
