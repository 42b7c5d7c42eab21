/-
**What a rule does depends on the tokens that it has seen.**

Two cursors are alike up to a bound if the tokens before it agree: in their lexemes, in which of
them mark the end, and in their places as far as these are compared. Two rules are alike if they do
the same at such cursors: what the first reads before the bound the second reads at the other
cursor too, and an error that is settled before the bound is met there as well.

* `alike_of_judge`: a rule that decides by one token is alike to itself.
* `Alike.bind`, `alike_here_ite`, `alike_collect`, `alike_iterate`: what is put together from alike
  rules is alike.
-/

import BlockLanguage.Grammar.Rule

namespace BlockLanguage

/-! ### Cursors that are alike -/

/-- How two runs of tokens are compared: by the relation of their places, up to the token at a
bound, with the indices of the second run larger by a shift. -/
structure Likeness where
  places : Span → Span → Prop
  bound : Nat
  shift : Nat

variable (likeness : Likeness)

/-- Tokens that a comparison does not tell apart. -/
structure Token.Alike (first second : Token) : Prop where
  lexeme : second.lexeme = first.lexeme
  mark : second.isEndOfInput = first.isEndOfInput
  span : likeness.places first.span second.span

/-- The tokens ahead of a cursor, with the first mark of the end. -/
def Cursor.ahead (cursor : Cursor) : List Token := cursor.live ++ [cursor.sentinel]

/-- Cursors at which the tokens before the bound are alike. -/
structure Cursor.Alike (first second : Cursor) : Prop where
  position : second.position = first.position + likeness.shift
  ahead : ∀ index, first.position + index < likeness.bound →
    Option.Rel (Token.Alike likeness) first.ahead[index]? second.ahead[index]?

/-- How many tokens have to be known for an error: those up to the one that it lies in, and for a
definition that repeats a name those up to the one behind it. -/
def Stop.reach (stop : Stop) : Nat :=
  match stop.error.cause with
  | .duplicateInstruction _ => stop.cursor.position + 1
  | _ => stop.error.position + 1

/-- Where no name is repeated, the tokens up to the one that the error lies in are enough. -/
theorem Stop.reach_eq {stop : Stop}
    (once : ∀ name, stop.error.cause ≠ .duplicateInstruction name) :
    stop.reach = stop.error.position + 1 := by
  rw [reach]
  split
  · next name repeats => exact absurd repeats (once name)
  · rfl

/-- The same error, with its index and that of the cursor larger by the shift. -/
structure Stop.Alike (first second : Stop) : Prop where
  cause : second.error.cause = first.error.cause
  position : second.error.position = first.error.position + likeness.shift
  span : likeness.places first.error.span second.error.span
  help : second.error.help = first.error.help
  stands : second.cursor.position = first.cursor.position + likeness.shift

/-- Where each place of the second run is known from that of the first, so is the error. -/
theorem Stop.Alike.error_eq (move : Span → Span) {bound shift : Nat} {first second : Stop}
    (alike : first.Alike ⟨fun span other => move span = other, bound, shift⟩ second) :
    second.error =
      { first.error with
        position := first.error.position + shift
        span := move first.error.span } := by
  obtain ⟨⟨cause, position, span, help⟩, cursor⟩ := first
  obtain ⟨⟨cause', position', span', help'⟩, cursor'⟩ := second
  cases alike.cause
  cases alike.position
  cases alike.span
  cases alike.help
  rfl

namespace Cursor

variable {likeness} {first second : Cursor}

theorem ahead_zero (cursor : Cursor) : cursor.ahead[0]? = some cursor.front := by
  unfold ahead front
  cases cursor.live <;> rfl

theorem ahead_advance {cursor : Cursor} (more : cursor.atEnd = false) (index : Nat) :
    cursor.advance.ahead[index]? = cursor.ahead[index + 1]? := by
  obtain ⟨position, live, sentinel, beyond, live_open, sentinel_closes⟩ := cursor
  cases live with
  | nil => cases more
  | cons token more => rfl

theorem position_advance {cursor : Cursor} (more : cursor.atEnd = false) :
    cursor.advance.position = cursor.position + 1 := by
  obtain ⟨position, live, sentinel, beyond, live_open, sentinel_closes⟩ := cursor
  cases live with
  | nil => cases more
  | cons token more => rfl

theorem advance_of_atEnd {cursor : Cursor} (ended : cursor.atEnd = true) :
    cursor.advance = cursor := by
  obtain ⟨position, live, sentinel, beyond, live_open, sentinel_closes⟩ := cursor
  cases live with
  | nil => rfl
  | cons token more => cases ended

namespace Alike

theorem front (alike : first.Alike likeness second) (inside : first.position < likeness.bound) :
    first.front.Alike likeness second.front := by
  have fronts := alike.ahead 0 inside
  rw [ahead_zero, ahead_zero] at fronts
  exact Option.rel_some_some.mp fronts

theorem atEnd (alike : first.Alike likeness second) (inside : first.position < likeness.bound) :
    second.atEnd = first.atEnd := by
  rw [← isEndOfInput_front, ← isEndOfInput_front]
  exact (alike.front inside).mark

theorem advance (alike : first.Alike likeness second) (inside : first.position < likeness.bound) :
    first.advance.Alike likeness second.advance := by
  have ends := alike.atEnd inside
  cases ended : first.atEnd with
  | true =>
    rw [advance_of_atEnd ended, advance_of_atEnd (ends.trans ended)]
    exact alike
  | false =>
    refine ⟨?_, fun index before => ?_⟩
    · rw [position_advance ended, position_advance (ends.trans ended), alike.position]
      omega
    · rw [ahead_advance ended, ahead_advance (ends.trans ended)]
      refine alike.ahead (index + 1) ?_
      rw [position_advance ended] at before
      omega

end Alike

theorem unexpected_eq (cursor : Cursor) (expected : String) :
    cursor.unexpected expected = cursor.error
      (if cursor.atEnd then .unexpectedEndOfInput expected
        else .unexpectedToken expected cursor.front.lexeme) none := by
  unfold unexpected
  split <;> rfl

end Cursor

/-! ### Rules that are local -/

namespace Rule

variable {α β : Type}

/-- What the first result settles before the bound, the second one has too. -/
structure Agrees (first second : Except Stop (α × Cursor)) : Prop where
  read : ∀ {value rest}, first = .ok (value, rest) → rest.position < likeness.bound →
    ∃ rest', second = .ok (value, rest') ∧ rest.Alike likeness rest'
  refused : ∀ {stop}, first = .error stop → stop.reach ≤ likeness.bound →
    ∃ stop', second = .error stop' ∧ stop.Alike likeness stop'

/-- The second rule does at one of two alike cursors what the first one does at the other; where the
first one refuses it has seen the token where it began. -/
structure Alike (first second : Rule α) : Prop where
  late : ∀ {cursor stop}, first.run cursor = .error stop → cursor.position < stop.reach
  agrees : ∀ {cursor cursor'}, cursor.Alike likeness cursor' →
    cursor.position < likeness.bound → Agrees likeness (first.run cursor) (second.run cursor')

variable {likeness}

theorem Agrees.of_read {value : α} {rest rest' : Cursor}
    (alike : rest.Alike likeness rest') :
    Agrees likeness (.ok (value, rest)) (.ok (value, rest')) where
  read read _ := by
    cases read
    exact ⟨rest', rfl, alike⟩
  refused refused := by cases refused

theorem Agrees.of_refused {stop stop' : Stop}
    (alike : stop.Alike likeness stop') :
    Agrees (α := α) likeness (.error stop) (.error stop') where
  read read := by cases read
  refused refused _ := by
    cases refused
    exact ⟨stop', rfl, alike⟩

/-- What begins behind the bound settles nothing before it. -/
theorem Agrees.of_beyond {rule : Rule α} {first : Cursor}
    (late : ∀ {stop}, rule.run first = .error stop → first.position < stop.reach)
    (beyond : likeness.bound ≤ first.position) (result : Except Stop (α × Cursor)) :
    Agrees likeness (rule.run first) result where
  read read before := by
    obtain ⟨passed, passes⟩ := rule.forward read
    rw [passes.position] at before
    omega
  refused refused before := by
    have := late refused
    omega

theorem Alike.agrees_of_alike {rule rule' : Rule α} (same : rule.Alike likeness rule')
    {first second : Cursor} (alike : first.Alike likeness second) :
    Agrees likeness (rule.run first) (rule'.run second) := by
  by_cases inside : first.position < likeness.bound
  · exact same.agrees alike inside
  · exact .of_beyond same.late (Nat.le_of_not_lt inside) _

/-! ### Rules that look at one token -/

/-- What a rule makes of the token in front. -/
inductive Verdict (α : Type)
  | take (value : α)
  | leave (value : α)
  | refuse (cause : ParseError.Cause) (help : Option String)

/-- The verdict that a token is not what the grammar expects there. -/
def Verdict.unexpected (expected lexeme : String) (ended : Bool) : Verdict α :=
  refuse (if ended then .unexpectedEndOfInput expected else .unexpectedToken expected lexeme) none

/-- The result of a verdict on the token at a cursor. -/
def Verdict.result (cursor : Cursor) : Verdict α → Except Stop (α × Cursor)
  | take value => .ok (value, cursor.advance)
  | leave value => .ok (value, cursor)
  | refuse cause help => .error ⟨cursor.error cause help, cursor⟩

theorem Verdict.result_unexpected (cursor : Cursor) (expected : String) :
    (Verdict.unexpected expected cursor.front.lexeme cursor.atEnd : Verdict α).result cursor =
      .error ⟨cursor.unexpected expected, cursor⟩ := by
  unfold Verdict.unexpected Cursor.unexpected
  cases cursor.atEnd <;> rfl

/-- A rule that decides by the lexeme in front and by whether it marks the end does so wherever
these are the same. -/
theorem alike_of_judge {rule : Rule α} (judge : String → Bool → Verdict α)
    (looks : ∀ cursor, rule.run cursor = (judge cursor.front.lexeme cursor.atEnd).result cursor) :
    rule.Alike likeness rule where
  late {cursor stop} refused := by
    rw [looks] at refused
    cases verdict : judge cursor.front.lexeme cursor.atEnd with
    | take value => rw [verdict] at refused; cases refused
    | leave value => rw [verdict] at refused; cases refused
    | refuse cause help =>
      rw [verdict] at refused
      cases refused
      unfold Stop.reach
      split <;> exact Nat.lt_succ_self _
  agrees {cursor cursor'} alike inside := by
    rw [looks, looks, (alike.front inside).lexeme, alike.atEnd inside]
    cases judge cursor.front.lexeme cursor.atEnd with
    | take value => exact .of_read (alike.advance inside)
    | leave value => exact .of_read alike
    | refuse cause help =>
      exact .of_refused ⟨rfl, alike.position, (alike.front inside).span, rfl, alike.position⟩

theorem alike_unexpected (expected : String) :
    (unexpected expected : Rule α).Alike likeness (unexpected expected) := by
  refine alike_of_judge (Verdict.unexpected expected) fun cursor => ?_
  rw [Verdict.result_unexpected]
  rfl

theorem alike_refuse (cause : ParseError.Cause) (help : Option String) :
    (refuse (·.error cause help) : Rule α).Alike likeness (refuse (·.error cause help)) :=
  alike_of_judge (fun _ _ => .refuse cause help) fun _ => rfl

theorem alike_pure (value : α) : (pure value : Rule α).Alike likeness (pure value) :=
  alike_of_judge (fun _ _ => .leave value) fun _ => rfl

/-! ### Rules one behind the other -/

section Bind

variable {rule rule' : Rule α} {next next' : α → Rule β} {first second : Cursor}

theorem late_bind
    (late : ∀ {stop}, rule.run first = .error stop → first.position < stop.reach)
    (lateNext : ∀ {value rest stop}, rule.run first = .ok (value, rest) →
      (next value).run rest = .error stop → rest.position < stop.reach)
    {stop : Stop} (refused : (rule >>= next).run first = .error stop) :
    first.position < stop.reach := by
  rcases run_bind_eq_error_iff.mp refused with here | ⟨found, rest, read, behind⟩
  · exact late here
  · obtain ⟨passed, passes⟩ := rule.forward read
    have later := lateNext read behind
    rw [passes.position] at later
    omega

/-- Where the first of two rules agrees and what is behind it does, both together do. -/
theorem Agrees.bind (agrees : Agrees likeness (rule.run first) (rule'.run second))
    (late : ∀ {value rest stop}, rule.run first = .ok (value, rest) →
      (next value).run rest = .error stop → rest.position < stop.reach)
    (behind : ∀ {value rest rest'}, rule.run first = .ok (value, rest) →
      rest.Alike likeness rest' →
        Agrees likeness ((next value).run rest) ((next' value).run rest')) :
    Agrees likeness ((rule >>= next).run first) ((rule' >>= next').run second) where
  read {value last} read before := by
    obtain ⟨found, rest, readFirst, readNext⟩ := run_bind_eq_ok_iff.mp read
    have forward : rest.position ≤ last.position := by
      obtain ⟨passed, passes⟩ := (next found).forward readNext
      rw [passes.position]
      exact Nat.le_add_right _ _
    obtain ⟨rest', readFirst', alike⟩ := agrees.read readFirst (Nat.lt_of_le_of_lt forward before)
    rw [run_bind_of_ok readFirst']
    exact (behind readFirst alike).read readNext before
  refused {stop} refused before := by
    rcases run_bind_eq_error_iff.mp refused with here | ⟨found, rest, readFirst, refusedNext⟩
    · obtain ⟨stop', here', alike⟩ := agrees.refused here before
      exact ⟨stop', run_bind_of_error here', alike⟩
    · have inside := Nat.lt_of_lt_of_le (late readFirst refusedNext) before
      obtain ⟨rest', readFirst', alike⟩ := agrees.read readFirst inside
      rw [run_bind_of_ok readFirst']
      exact (behind readFirst alike).refused refusedNext before

theorem Alike.bind (same : rule.Alike likeness rule')
    (sameNext : ∀ value, (next value).Alike likeness (next' value)) :
    (rule >>= next).Alike likeness (rule' >>= next') where
  late refused := late_bind same.late (fun _ => (sameNext _).late) refused
  agrees alike inside :=
    (same.agrees alike inside).bind (fun _ => (sameNext _).late)
      fun _ => (sameNext _).agrees_of_alike

end Bind

/-! ### Repetitions -/

section Repetition

variable {goesOn : Cursor → Bool}

/-- Whether a repetition goes on is decided by the lexeme in front and by whether it marks the
end. -/
def GoesBy (goesOn : Cursor → Bool) (judge : String → Bool → Bool) : Prop :=
  ∀ cursor, goesOn cursor = judge cursor.front.lexeme cursor.atEnd

theorem GoesBy.alike {judge : String → Bool → Bool} (goesBy : GoesBy goesOn judge)
    {first second : Cursor} (alike : first.Alike likeness second)
    (inside : first.position < likeness.bound) : goesOn second = goesOn first := by
  rw [goesBy, goesBy, (alike.front inside).lexeme, alike.atEnd inside]

/-- A choice by the cursor falls the same way at cursors that are alike. -/
theorem alike_here_ite {judge : String → Bool → Bool} (goesBy : GoesBy goesOn judge)
    {rule other : Rule α} (same : rule.Alike likeness rule)
    (sameOther : other.Alike likeness other) :
    Rule.Alike likeness (do if goesOn (← here) then rule else other)
      (do if goesOn (← here) then rule else other) where
  late {cursor stop} refused := by
    rw [run_bind_of_ok (run_here cursor)] at refused
    split at refused
    · exact same.late refused
    · exact sameOther.late refused
  agrees {cursor cursor'} alike inside := by
    rw [run_bind_of_ok (run_here cursor), run_bind_of_ok (run_here cursor'),
      goesBy.alike alike inside]
    split
    · exact same.agrees alike inside
    · exact sameOther.agrees alike inside

section Collect

variable {rule : Rule α} (same : rule.Alike likeness rule) (progress : Progresses goesOn rule)
include same

private theorem late_collect (first : Cursor) {stop : Stop}
    (refused : (collect goesOn rule progress).run first = .error stop) :
    first.position < stop.reach := by
  cases again : goesOn first with
  | false =>
    have stops := collectFrom_stop goesOn rule progress again
    cases stops.symm.trans refused
  | true =>
    rw [run_collect_of_goesOn _ _ _ again] at refused
    refine late_bind same.late (fun {value rest _} read refusedMore => ?_) refused
    have shorter := progress _ _ _ again read
    rcases run_bind_eq_error_iff.mp refusedMore with here | ⟨values, last, -, none⟩
    · exact late_collect rest here
    · cases none
termination_by first.live.length

private theorem agrees_collect {judge : String → Bool → Bool} (goesBy : GoesBy goesOn judge)
    (first second : Cursor) (alike : first.Alike likeness second) :
    Agrees likeness ((collect goesOn rule progress).run first)
      ((collect goesOn rule progress).run second) := by
  by_cases inside : first.position < likeness.bound
  · have sameAgain := goesBy.alike alike inside
    cases again : goesOn first with
    | false =>
      show Agrees likeness (collectFrom goesOn rule progress first)
        (collectFrom goesOn rule progress second)
      rw [collectFrom_stop _ _ _ again, collectFrom_stop _ _ _ (sameAgain.trans again)]
      exact .of_read alike
    | true =>
      rw [run_collect_of_goesOn _ _ _ again, run_collect_of_goesOn _ _ _ (sameAgain.trans again)]
      refine (same.agrees alike inside).bind (fun {value rest _} read refused => ?_)
        fun {value rest rest'} read alikeRest => ?_
      · rcases run_bind_eq_error_iff.mp refused with here | ⟨values, last, -, none⟩
        · exact late_collect same progress rest here
        · cases none
      · have shorter := progress _ _ _ again read
        refine (agrees_collect goesBy rest rest' alikeRest).bind (fun _ none => ?_)
          fun _ alikeLast => .of_read alikeLast
        cases none
  · exact .of_beyond (late_collect same progress first) (Nat.le_of_not_lt inside) _
termination_by first.live.length

theorem alike_collect {judge : String → Bool → Bool} (goesBy : GoesBy goesOn judge) :
    (collect goesOn rule progress).Alike likeness (collect goesOn rule progress) where
  late refused := late_collect same progress _ refused
  agrees alike _ := agrees_collect same progress goesBy _ _ alike

end Collect

section Iterate

variable {rule : α → Rule α} (same : ∀ value, (rule value).Alike likeness (rule value))
  (progress : ∀ value, Progresses goesOn (rule value))
include same

private theorem late_iterate (value : α) (first : Cursor) {stop : Stop}
    (refused : (iterate goesOn rule progress value).run first = .error stop) :
    first.position < stop.reach := by
  cases again : goesOn first with
  | false =>
    have stops := @iterateFrom_stop _ goesOn rule progress value _ again
    cases stops.symm.trans refused
  | true =>
    rw [run_iterate_of_goesOn _ _ _ again] at refused
    refine late_bind (same value).late (fun {next rest _} read behind => ?_) refused
    have shorter := progress _ _ _ _ again read
    exact late_iterate next rest behind
termination_by first.live.length

private theorem agrees_iterate {judge : String → Bool → Bool} (goesBy : GoesBy goesOn judge)
    (value : α) (first second : Cursor) (alike : first.Alike likeness second) :
    Agrees likeness ((iterate goesOn rule progress value).run first)
      ((iterate goesOn rule progress value).run second) := by
  by_cases inside : first.position < likeness.bound
  · have sameAgain := goesBy.alike alike inside
    cases again : goesOn first with
    | false =>
      show Agrees likeness (iterateFrom goesOn rule progress value first)
        (iterateFrom goesOn rule progress value second)
      rw [iterateFrom_stop _ _ _ again, iterateFrom_stop _ _ _ (sameAgain.trans again)]
      exact .of_read alike
    | true =>
      rw [run_iterate_of_goesOn _ _ _ again, run_iterate_of_goesOn _ _ _ (sameAgain.trans again)]
      refine ((same value).agrees alike inside).bind
        (fun {next rest _} _ refused => late_iterate same progress next rest refused)
        fun {next rest rest'} read alikeRest => ?_
      have shorter := progress _ _ _ _ again read
      exact agrees_iterate goesBy next rest rest' alikeRest
  · exact .of_beyond (late_iterate same progress value first) (Nat.le_of_not_lt inside) _
termination_by first.live.length

theorem alike_iterate {judge : String → Bool → Bool} (goesBy : GoesBy goesOn judge) (value : α) :
    (iterate goesOn rule progress value).Alike likeness (iterate goesOn rule progress value) where
  late refused := late_iterate same progress value _ refused
  agrees alike _ := agrees_iterate same progress goesBy value _ _ alike

end Iterate

end Repetition

end Rule

end BlockLanguage
