/-
**Steps of the machine, and rules that they follow.**

The machine is made to stand at a cursor: its index is the position of the cursor, and its tokens
from there on are those ahead of the cursor. A step that follows a rule comes to the value or the
error of the rule, and leaves the machine at the cursor at which the rule ends, or where it stops.
No rule misses a token, so no step that follows one does.

* `Gives`: one run of a step that ends without a fault; `gives_peek_of_getElem?` and the like for
  single tokens at an index.
* `Ends`, `Follows`: a run that ends as a rule does, and a step that does so at every cursor.
* `Follows.bind`: what follows rules one by one follows them one behind the other.
* `follows_keyword` and the like: single tokens.
-/

import BlockLanguage.Machine
import BlockLanguage.Proofs.Locality

namespace BlockLanguage

/-! ### Rules up to what they read -/

namespace Rule

theorem ext {α : Type} {first second : Rule α}
    (same : ∀ cursor, first.run cursor = second.run cursor) : first = second := by
  cases first
  cases second
  cases funext same
  rfl

instance : LawfulMonad Rule := LawfulMonad.mk' Rule
  (fun rule => ext fun cursor => by
    show (rule >>= fun value => pure (id value)).run cursor = rule.run cursor
    rw [run_bind]
    cases rule.run cursor <;> rfl)
  (fun _ _ => rfl)
  (fun rule next more => ext fun cursor => by
    rw [run_bind, run_bind, run_bind]
    cases rule.run cursor <;> rfl)

end Rule

namespace Machine

/-! ### Steps that end without a fault -/

/-- From one state of the machine a step comes to a value, and leaves the machine in another. -/
def Gives {α : Type} (action : Effect α) (machine : Machine) (value : α) (after : Machine) :
    Prop :=
  (action.run machine).run = some (.ok (value, after))

section Gives

variable {α β : Type} {machine between after : Machine} {value : α} {result : β}

theorem gives_pure (value : α) (machine : Machine) : Gives (pure value) machine value machine :=
  rfl

theorem gives_get (machine : Machine) : Gives get machine machine machine := rfl

/-- A step comes to one value only, and leaves the machine in one state. -/
theorem Gives.unique {action : Effect α} {value' : α} {after' : Machine}
    (gives : Gives action machine value after) (gives' : Gives action machine value' after') :
    value = value' ∧ after = after' := by
  have same := gives.symm.trans gives'
  rw [Option.some.injEq, Except.ok.injEq, Prod.mk.injEq] at same
  exact same

theorem Gives.bind {action : Effect α} {next : α → Effect β}
    (first : Gives action machine value between)
    (second : Gives (next value) between result after) :
    Gives (action >>= next) machine result after := by
  unfold Gives at first second ⊢
  rw [StateT.run_bind, ExceptT.run_bind, first]
  exact second

/-- A step of a parse goes on behind a value. -/
theorem Gives.andThen {action : Run α} {next : α → Run β} {last : Except ParseError β}
    (first : Gives action.run machine (.ok value) between)
    (second : Gives (next value).run between last after) :
    Gives (action >>= next).run machine last after :=
  Gives.bind first second

/-- A step of a parse ends with an error. -/
theorem Gives.andStop {action : Run α} {next : α → Run β} {error : ParseError}
    (first : Gives action.run machine (.error error) after) :
    Gives (action >>= next).run machine (.error error) after :=
  Gives.bind first (gives_pure _ after)

/-- A step that cannot fail is a step of a parse. -/
theorem Gives.lifted {action : Effect α} (gives : Gives action machine value after) :
    Gives (ExceptT.lift action : Run α).run machine (.ok value) after := by
  unfold Gives at gives ⊢
  rw [ExceptT.run_lift, StateT.run_map, ExceptT.run_map, gives]
  rfl

/-- A parse goes on behind a step that cannot fail. -/
theorem Gives.lift {action : Effect α} {next : α → Run β} {last : Except ParseError β}
    (first : Gives action machine value between)
    (second : Gives (next value).run between last after) :
    Gives (ExceptT.lift action >>= next).run machine last after :=
  first.lifted.andThen second

/-- A parse ends with an error that has been made. -/
theorem Gives.throws {action : Effect ParseError} {error : ParseError}
    (made : Gives action machine error after) :
    Gives (ExceptT.lift action >>= throw : Run α).run machine (.error error) after :=
  made.lift (gives_pure _ after)

end Gives

/-! ### The machine at an index -/

section Index

variable {machine : Machine} {token : Token} (found : machine.tokens[machine.current]? = some token)
include found

theorem gives_peek_of_getElem? : Gives peek machine token machine := by
  refine Gives.bind (gives_get _) ?_
  rw [found]
  exact gives_pure _ _

theorem gives_error_of_getElem? (cause : ParseError.Cause) (help : Option String) :
    Gives (error cause help) machine ⟨cause, machine.current, token.span, help⟩ machine :=
  (gives_peek_of_getElem? found).bind ((gives_get _).bind (gives_pure _ _))

theorem gives_advance_of_getElem? (ahead : token.isEndOfInput = false) :
    Gives advance machine token { machine with current := machine.current + 1 } := by
  refine (gives_peek_of_getElem? found).bind ?_
  rw [ahead]
  rfl

end Index

/-! ### The machine at a cursor -/

/-- The machine with the index of a cursor. -/
def atCursor (home : Machine) (cursor : Cursor) : Machine :=
  { home with current := cursor.position }

/-- The tokens of the machine, from the index of a cursor on, are those ahead of the cursor. -/
def Covers (home : Machine) (cursor : Cursor) : Prop :=
  home.tokens.drop cursor.position = cursor.remaining

section Tokens

variable {home : Machine} {cursor rest : Cursor} (covers : home.Covers cursor)
include covers

theorem Covers.of_reaches (reaches : cursor.Reaches rest) : home.Covers rest := by
  obtain ⟨passed, passes⟩ := reaches
  unfold Covers at covers ⊢
  rw [passes.position, ← List.drop_drop, covers, passes.remaining_eq, List.drop_left]

theorem Covers.advance : home.Covers cursor.advance := covers.of_reaches (.advance cursor)

/-- There is a token at the index. -/
theorem Covers.getElem? : home.tokens[cursor.position]? = some cursor.front := by
  have first : (home.tokens.drop cursor.position).head? = cursor.remaining.head? :=
    congrArg List.head? covers
  rw [List.head?_drop] at first
  rw [first, Cursor.remaining, Cursor.front]
  cases cursor.live <;> rfl

/-- Behind the index there are more tokens than the cursor has before the mark. -/
theorem Covers.length_lt : cursor.live.length < home.tokens.length := by
  have ahead := congrArg List.length covers
  rw [List.length_drop, Cursor.remaining, List.length_append, List.length_cons] at ahead
  omega

theorem gives_peek : Gives peek (home.atCursor cursor) cursor.front (home.atCursor cursor) :=
  gives_peek_of_getElem? covers.getElem?

omit covers in
/-- An index behind all tokens is a fault. -/
example : (peek.run ⟨[], 0, 0, {}⟩).run = some (.error (.noToken 0 0)) := rfl

/-- What depends only on the token at the index. -/
theorem gives_look {α : Type} (look : Token → α) :
    Gives (return look (← peek)) (home.atCursor cursor) (look cursor.front)
      (home.atCursor cursor) :=
  (gives_peek covers).bind (gives_pure _ _)

theorem gives_advance :
    Gives advance (home.atCursor cursor) cursor.front (home.atCursor cursor.advance) := by
  cases ended : cursor.atEnd with
  | true =>
    refine (gives_peek covers).bind ?_
    rw [Cursor.isEndOfInput_front, ended, Cursor.advance_of_atEnd ended]
    exact gives_pure _ _
  | false =>
    unfold atCursor
    rw [Cursor.position_advance ended]
    exact gives_advance_of_getElem? covers.getElem? (cursor.isEndOfInput_front.trans ended)

theorem gives_isAtEnd :
    Gives isAtEnd (home.atCursor cursor) cursor.atEnd (home.atCursor cursor) := by
  rw [← Cursor.isEndOfInput_front]
  exact gives_look covers _

theorem gives_checkKeyword (lexeme : String) :
    Gives (checkKeyword lexeme) (home.atCursor cursor) (Grammar.stands lexeme cursor)
      (home.atCursor cursor) := gives_look covers _

theorem gives_matchKeyword (lexeme : String) :
    Gives (matchKeyword lexeme) (home.atCursor cursor) (Grammar.stands lexeme cursor)
      (home.atCursor (if Grammar.stands lexeme cursor then cursor.advance else cursor)) := by
  refine (gives_checkKeyword covers lexeme).bind ?_
  cases Grammar.stands lexeme cursor with
  | true => exact (gives_advance covers).bind (gives_pure _ _)
  | false => exact gives_pure _ _

theorem gives_remaining :
    Gives remaining (home.atCursor cursor) cursor.remaining (home.atCursor cursor) := by
  have inside : (home.atCursor cursor).current ≤ (home.atCursor cursor).tokens.length :=
    Nat.le_of_lt (List.getElem?_eq_some_iff.mp covers.getElem?).1
  refine Gives.bind (gives_get _) ?_
  rw [if_pos inside, ← covers]
  exact gives_pure _ _

theorem gives_error (cause : ParseError.Cause) (help : Option String) :
    Gives (error cause help) (home.atCursor cursor) (cursor.error cause help)
      (home.atCursor cursor) :=
  gives_error_of_getElem? covers.getElem? cause help

theorem gives_unexpected (expected : String) :
    Gives (unexpected expected) (home.atCursor cursor) (cursor.unexpected expected)
      (home.atCursor cursor) := by
  refine (gives_peek covers).bind ?_
  rw [Cursor.isEndOfInput_front, Cursor.unexpected]
  split
  · exact gives_error covers _ _
  · exact gives_error covers _ _

end Tokens

/-! ### Steps that follow a rule -/

/-- A parse ends as a rule does: with its value at its cursor, or with its error where it stops. -/
inductive Ends {α β : Type} (home : Machine) (action : Effect (Except ParseError α))
    (shown : β → α) (machine : Machine) : Except Stop (β × Cursor) → Prop
  | ok {value : β} {rest : Cursor} (covers : home.Covers rest)
      (gives : Gives action machine (.ok (shown value)) (home.atCursor rest)) :
    Ends home action shown machine (.ok (value, rest))
  | error {stop : Stop} (covers : home.Covers stop.cursor)
      (gives : Gives action machine (.error stop.error) (home.atCursor stop.cursor)) :
    Ends home action shown machine (.error stop)

/-- From every cursor a parse ends as a rule does. -/
def Follows {α β : Type} (home : Machine) (action : Effect (Except ParseError α)) (rule : Rule β)
    (shown : β → α) : Prop :=
  ∀ cursor, home.Covers cursor → Ends home action shown (home.atCursor cursor) (rule.run cursor)

section Follows

variable {α β γ δ : Type} {home machine between : Machine} {cursor : Cursor}

/-- Behind a step without an error a parse ends as it does behind that step. -/
theorem Ends.behind {action : Effect α} {next : α → Effect (Except ParseError γ)} {value : α}
    {shown : δ → γ} {step : Except Stop (δ × Cursor)}
    (first : Gives action machine value between)
    (second : Ends home (next value) shown between step) :
    Ends home (action >>= next) shown machine step := by
  cases second with
  | ok covers gives => exact .ok covers (first.bind gives)
  | error covers gives => exact .error covers (first.bind gives)

@[inherit_doc Ends.behind]
theorem Ends.andThen {action : Run α} {next : α → Run γ} {value : α} {shown : δ → γ}
    {step : Except Stop (δ × Cursor)}
    (first : Gives action.run machine (.ok value) between)
    (second : Ends home (next value).run shown between step) :
    Ends home (action >>= next).run shown machine step :=
  Ends.behind first second

@[inherit_doc Ends.behind]
theorem Ends.lift {action : Effect α} {next : α → Run γ} {value : α} {shown : δ → γ}
    {step : Except Stop (δ × Cursor)}
    (first : Gives action machine value between)
    (second : Ends home (next value).run shown between step) :
    Ends home (ExceptT.lift action >>= next).run shown machine step :=
  .andThen first.lifted second

/-- A parse fails at the cursor with the error that is made there. -/
theorem ends_unexpected {shown : β → α} (covers : home.Covers cursor) (expected : String) :
    Ends home (ExceptT.lift (unexpected expected) >>= throw : Run α).run shown
      (home.atCursor cursor)
      (.error ⟨cursor.unexpected expected, cursor⟩) :=
  .error covers (gives_unexpected covers expected).throws

@[inherit_doc ends_unexpected]
theorem ends_error {shown : β → α} (covers : home.Covers cursor) (cause : ParseError.Cause)
    (help : Option String) :
    Ends home (ExceptT.lift (error cause help) >>= throw : Run α).run shown
      (home.atCursor cursor)
      (.error ⟨cursor.error cause help, cursor⟩) :=
  .error covers (gives_error covers cause help).throws

theorem ends_pure (shown : β → α) (covers : home.Covers cursor) (value : β) :
    Ends home (pure (shown value) : Run α).run shown (home.atCursor cursor)
      (.ok (value, cursor)) :=
  .ok covers (gives_pure _ _)

theorem follows_pure (shown : β → α) (value : β) :
    Follows home (pure (shown value) : Run α).run (pure value) shown :=
  fun _ covers => ends_pure shown covers value

/-- Two parses, one behind the other, follow two rules, one behind the other. -/
theorem Follows.bind {action : Run α} {next : α → Run γ} {rule : Rule β} {nextRule : β → Rule δ}
    {shown : β → α} {after : δ → γ} (first : Follows home action.run rule shown)
    (second : ∀ value, Follows home (next (shown value)).run (nextRule value) after) :
    Follows home (action >>= next).run (rule >>= nextRule) after := by
  intro cursor covers
  have head := first cursor covers
  rw [Rule.run_bind]
  generalize rule.run cursor = step at head
  cases head with
  | error covers gives => exact .error covers gives.andStop
  | ok covers gives => exact .andThen gives (second _ _ covers)

/-! ### Single tokens -/

theorem follows_keyword (lexeme : String) :
    Follows home (consumeKeyword lexeme).run (Grammar.keyword lexeme) id := by
  intro cursor covers
  have taken := gives_matchKeyword covers lexeme
  rw [Grammar.run_keyword]
  refine .lift taken ?_
  cases stands : Grammar.stands lexeme cursor with
  | true => exact ends_pure id covers.advance ()
  | false => exact ends_unexpected covers _

theorem follows_optional (lexeme : String) :
    Follows home (ExceptT.lift (matchKeyword lexeme) : Run Bool).run (Grammar.optional lexeme)
      id := by
  intro cursor covers
  have gives := (gives_matchKeyword covers lexeme).lifted
  rw [Grammar.run_optional]
  cases stands : Grammar.stands lexeme cursor with
  | true =>
    rw [stands] at gives
    exact .ok covers.advance gives
  | false =>
    rw [stands] at gives
    exact .ok covers gives

theorem follows_identifier :
    Follows home consumeIdentifier.run Grammar.identifier Identifier.text := by
  intro cursor covers
  rw [Grammar.run_identifier]
  refine .lift (gives_peek covers) ?_
  cases named : Identifier.ofText? cursor.front.lexeme with
  | some name =>
    have same : name.text = cursor.front.lexeme := Identifier.ofText?_eq_some_iff.mp named
    rw [if_pos (same ▸ name.valid)]
    refine .lift (gives_advance covers) ?_
    rw [← same]
    exact ends_pure Identifier.text covers.advance name
  | none =>
    rw [if_neg (by simp [Identifier.ofText?_eq_none_iff.mp named])]
    exact ends_unexpected covers _

/-- The lenient look-up finds no more than the exact one where the spelling is checked besides. -/
theorem filter_parse? (lexeme : String) :
    ((Condition.parse? lexeme).filter fun _ => Word.isCondition lexeme) =
      Condition.ofText? lexeme := by
  cases found : Condition.ofText? lexeme with
  | none =>
    have unlisted : Word.isCondition lexeme = false := by rw [Word.isCondition, found]; rfl
    rw [unlisted]
    cases Condition.parse? lexeme <;> rfl
  | some condition =>
    obtain rfl := Condition.ofText?_eq_some_iff.mp found
    cases condition <;> decide +kernel

theorem follows_condition :
    Follows home consumeCondition.run Grammar.condition id := by
  intro cursor covers
  rw [Grammar.run_condition]
  refine .lift (gives_peek covers) ?_
  rw [Cursor.isEndOfInput_front, filter_parse?]
  cases cursor.atEnd with
  | true => exact ends_unexpected covers _
  | false =>
    cases Condition.ofText? cursor.front.lexeme with
    | some condition =>
      refine .lift (gives_advance covers) ?_
      exact ends_pure id covers.advance condition
    | none => exact ends_error covers _ _

theorem follows_closingName (name : String) :
    Follows home (consumeClosingName name).run (Grammar.closingName name) id := by
  intro cursor covers
  rw [Grammar.run_closingName]
  refine .lift (gives_peek covers) ?_
  by_cases same : cursor.front.lexeme = name
  · rw [if_pos same, if_pos same]
    refine .lift (gives_advance covers) ?_
    exact ends_pure id covers.advance ()
  · rw [if_neg same, if_neg same]
    split
    · exact ends_error covers _ _
    · exact ends_unexpected covers _

theorem follows_endOfInput : Follows home expectEndOfInput.run Grammar.endOfInput id := by
  intro cursor covers
  rw [Grammar.run_endOfInput]
  refine .lift (gives_isAtEnd covers) ?_
  cases cursor.atEnd with
  | true => exact ends_pure id covers ()
  | false => exact ends_unexpected covers _

theorem follows_front : Follows home (ExceptT.lift peek : Run Token).run Rule.front id :=
  fun _ covers => .ok covers (gives_peek covers).lifted

theorem follows_advance : Follows home (ExceptT.lift advance : Run Token).run Rule.advance id :=
  fun _ covers => .ok covers.advance (gives_advance covers).lifted

/-- What is seen at a cursor changes nothing. -/
theorem follows_here {look : Effect α} {shown : Cursor → α}
    (gives : ∀ cursor, home.Covers cursor →
      Gives look (home.atCursor cursor) (shown cursor) (home.atCursor cursor)) :
    Follows home (ExceptT.lift look : Run α).run Rule.here shown :=
  fun cursor covers => .ok covers (gives cursor covers).lifted

end Follows

end Machine

end BlockLanguage
