/-
**Rules of a grammar.**

A rule reads a value at a cursor and says where reading goes on, or refuses with the error that ends
the parse. Where it goes on is never before the place where it began. Rules are put together with
`do`; a rule is repeated by `collect`, which gathers what it reads, and by `iterate`, which hands
one value from round to round. Both go on as long as the cursor allows, and end because every round
takes a token.
-/

import BlockLanguage.Cursor

namespace BlockLanguage

/-- The end of a parse: the error, and the cursor at which reading stood when it was found. -/
structure Stop where
  error : ParseError
  cursor : Cursor

/-- A way to read a value. -/
structure Rule (α : Type) where
  run : Cursor → Except Stop (α × Cursor)
  forward : ∀ {cursor value rest}, run cursor = .ok (value, rest) → cursor.Reaches rest

namespace Rule

variable {α β : Type}

/-- The rule that takes no token. -/
def done (value : α) : Rule α where
  run cursor := .ok (value, cursor)
  forward read := by cases read; exact .refl _

/-- One rule, then the rule that its value calls for. -/
def andThen (first : Rule α) (next : α → Rule β) : Rule β where
  run cursor :=
    match first.run cursor with
    | .error stop => .error stop
    | .ok (value, rest) => (next value).run rest
  forward := by
    intro cursor value rest read
    split at read
    · cases read
    · next found => exact (first.forward found).trans ((next _).forward read)

instance : Monad Rule where
  pure := done
  bind := andThen

/-- The rule that is made when it is used. -/
def delay (rule : Unit → Rule α) : Rule α where
  run cursor := (rule ()).run cursor
  forward := (rule ()).forward

/-- The rule that refuses with the error that a cursor gives rise to. -/
def refuse (error : Cursor → ParseError) : Rule α where
  run cursor := .error ⟨error cursor, cursor⟩
  forward read := by cases read

/-- The rule that refuses the token at the cursor. -/
def unexpected (expected : String) : Rule α := refuse (·.unexpected expected)

/-- The cursor, which stays where it is. -/
def here : Rule Cursor where
  run cursor := .ok (cursor, cursor)
  forward read := by cases read; exact .refl _

/-- The token at the cursor, which stays where it is. -/
def front : Rule Token where
  run cursor := .ok (cursor.front, cursor)
  forward read := by cases read; exact .refl _

/-- The token at the cursor, which is passed unless it is the mark of the end. -/
def advance : Rule Token where
  run cursor := .ok (cursor.front, cursor.advance)
  forward read := by cases read; exact .advance _

@[simp] theorem run_pure (value : α) (cursor : Cursor) :
    (pure value : Rule α).run cursor = .ok (value, cursor) := rfl

theorem run_bind (first : Rule α) (next : α → Rule β) (cursor : Cursor) :
    (first >>= next).run cursor =
      match first.run cursor with
      | .error stop => .error stop
      | .ok (value, rest) => (next value).run rest := rfl

/-- Two rules, one behind the other, read what the second reads behind the first. -/
theorem run_bind_eq_ok_iff {first : Rule α} {next : α → Rule β} {cursor last : Cursor} {value : β} :
    (first >>= next).run cursor = .ok (value, last) ↔
      ∃ found rest, first.run cursor = .ok (found, rest) ∧
        (next found).run rest = .ok (value, last) := by
  rw [run_bind]
  cases read : first.run cursor with
  | error stop => simp
  | ok step =>
    obtain ⟨found, rest⟩ := step
    simp [and_assoc]

/-- Two rules, one behind the other, refuse where either of them refuses. -/
theorem run_bind_eq_error_iff {first : Rule α} {next : α → Rule β} {cursor : Cursor}
    {stop : Stop} :
    (first >>= next).run cursor = .error stop ↔
      first.run cursor = .error stop ∨
        ∃ found rest, first.run cursor = .ok (found, rest) ∧
          (next found).run rest = .error stop := by
  rw [run_bind]
  cases read : first.run cursor with
  | error stop => simp
  | ok step =>
    obtain ⟨found, rest⟩ := step
    simp [and_assoc]

/-- Behind what one rule reads, the next one goes on. -/
theorem run_bind_of_ok {first : Rule α} {next : α → Rule β} {cursor rest : Cursor} {found : α}
    (read : first.run cursor = .ok (found, rest)) :
    (first >>= next).run cursor = (next found).run rest := by
  rw [run_bind, read]

/-- Where the first of two rules refuses, both together refuse. -/
theorem run_bind_of_error {first : Rule α} {next : α → Rule β} {cursor : Cursor} {stop : Stop}
    (refused : first.run cursor = .error stop) : (first >>= next).run cursor = .error stop := by
  rw [run_bind, refused]

@[simp] theorem run_refuse (error : Cursor → ParseError) (cursor : Cursor) :
    (refuse error : Rule α).run cursor = .error ⟨error cursor, cursor⟩ := rfl

@[simp] theorem run_here (cursor : Cursor) : here.run cursor = .ok (cursor, cursor) := rfl

@[simp] theorem run_front (cursor : Cursor) : front.run cursor = .ok (cursor.front, cursor) := rfl

@[simp] theorem run_advance (cursor : Cursor) :
    advance.run cursor = .ok (cursor.front, cursor.advance) := rfl

/-! ### Rules that take a token -/

/-- A rule takes a token wherever there is one, if it reads anything. -/
def TakesToken (rule : Rule α) : Prop :=
  ∀ cursor value rest, cursor.live ≠ [] → rule.run cursor = .ok (value, rest) →
    rest.live.length < cursor.live.length

theorem takesToken_refuse (error : Cursor → ParseError) : (refuse error : Rule α).TakesToken := by
  intro cursor value rest _ read
  cases read

theorem takesToken_advance : advance.TakesToken := by
  intro cursor value rest ahead read
  cases read
  exact Cursor.length_advance_lt ahead

/-- A rule that begins by taking a token takes a token. -/
theorem TakesToken.bind {first : Rule α} (takes : first.TakesToken) (next : α → Rule β) :
    (first >>= next).TakesToken := by
  intro cursor value rest ahead read
  rw [run_bind] at read
  split at read
  · cases read
  · next found =>
    exact Nat.lt_of_le_of_lt ((next _).forward read).length_le (takes _ _ _ ahead found)

/-- A rule that looks at the front and then takes a token takes a token. -/
theorem takesToken_front_bind {next : Token → Rule β} (takes : ∀ token, (next token).TakesToken) :
    (front >>= next).TakesToken := by
  intro cursor value rest ahead read
  exact takes _ _ _ _ ahead read

/-! ### Repetition -/

/-- A rule takes a token wherever a repetition goes on, if it reads anything. -/
def Progresses (goesOn : Cursor → Bool) (rule : Rule α) : Prop :=
  ∀ cursor value rest, goesOn cursor = true → rule.run cursor = .ok (value, rest) →
    rest.live.length < cursor.live.length

/-- The values that a rule reads from a cursor on, as long as the cursor allows. -/
def collectFrom (goesOn : Cursor → Bool) (rule : Rule α) (progress : Progresses goesOn rule)
    (cursor : Cursor) : Except Stop (List α × Cursor) :=
  if _again : goesOn cursor = true then
    match _read : rule.run cursor with
    | .error stop => .error stop
    | .ok (value, rest) =>
      match collectFrom goesOn rule progress rest with
      | .error stop => .error stop
      | .ok (values, last) => .ok (value :: values, last)
  else .ok ([], cursor)
termination_by cursor.live.length
decreasing_by exact progress _ _ _ ‹_› ‹_›

section Collect

variable (goesOn : Cursor → Bool) (rule : Rule α) (progress : Progresses goesOn rule)

/-- A repetition ends where the cursor does not allow another round. -/
theorem collectFrom_stop {cursor : Cursor} (stops : goesOn cursor = false) :
    collectFrom goesOn rule progress cursor = .ok ([], cursor) := by
  rw [collectFrom, dif_neg (by simp [stops])]

/-- A repetition refuses where a round refuses. -/
theorem collectFrom_error {cursor : Cursor} {stop : Stop} (again : goesOn cursor = true)
    (refused : rule.run cursor = .error stop) :
    collectFrom goesOn rule progress cursor = .error stop := by
  rw [collectFrom, dif_pos again]
  split
  · next found => rw [refused] at found; cases found; rfl
  · next found => rw [refused] at found; cases found

/-- A repetition is one round and the repetition behind it. -/
theorem collectFrom_more {cursor rest : Cursor} {value : α} (again : goesOn cursor = true)
    (read : rule.run cursor = .ok (value, rest)) :
    collectFrom goesOn rule progress cursor =
      match collectFrom goesOn rule progress rest with
      | .error stop => .error stop
      | .ok (values, last) => .ok (value :: values, last) := by
  rw [collectFrom, dif_pos again]
  split
  · next found => rw [read] at found; cases found
  · next found => rw [read] at found; cases found; rfl

/-- A repetition reads nothing exactly where it ends at once. -/
theorem collectFrom_eq_ok_nil_iff {cursor last : Cursor} :
    collectFrom goesOn rule progress cursor = .ok ([], last) ↔
      goesOn cursor = false ∧ last = cursor := by
  cases again : goesOn cursor with
  | false =>
    rw [collectFrom_stop goesOn rule progress again]
    simp [eq_comm]
  | true =>
    cases read : rule.run cursor with
    | error stop =>
      rw [collectFrom_error goesOn rule progress again read]
      simp
    | ok step =>
      rw [collectFrom_more goesOn rule progress again read]
      split <;> simp

/-- A repetition reads a first value and others where a round reads the first and the repetition
behind it the others. -/
theorem collectFrom_eq_ok_cons_iff {cursor last : Cursor} {value : α} {values : List α} :
    collectFrom goesOn rule progress cursor = .ok (value :: values, last) ↔
      goesOn cursor = true ∧ ∃ rest, rule.run cursor = .ok (value, rest) ∧
        collectFrom goesOn rule progress rest = .ok (values, last) := by
  cases again : goesOn cursor with
  | false =>
    rw [collectFrom_stop goesOn rule progress again]
    simp
  | true =>
    cases read : rule.run cursor with
    | error stop =>
      rw [collectFrom_error goesOn rule progress again read]
      simp
    | ok step =>
      obtain ⟨found, rest⟩ := step
      rw [collectFrom_more goesOn rule progress again read]
      split
      · next behind => simp [and_assoc, behind]
      · next behind => simp [and_assoc, behind]

/-- A repetition refuses where its first round or what is behind it refuses. -/
theorem collectFrom_eq_error_iff {cursor : Cursor} {stop : Stop} :
    collectFrom goesOn rule progress cursor = .error stop ↔
      goesOn cursor = true ∧ (rule.run cursor = .error stop ∨
        ∃ value rest, rule.run cursor = .ok (value, rest) ∧
          collectFrom goesOn rule progress rest = .error stop) := by
  cases again : goesOn cursor with
  | false =>
    rw [collectFrom_stop goesOn rule progress again]
    simp
  | true =>
    cases read : rule.run cursor with
    | error stop =>
      rw [collectFrom_error goesOn rule progress again read]
      simp
    | ok step =>
      obtain ⟨found, rest⟩ := step
      rw [collectFrom_more goesOn rule progress again read]
      split
      · next behind => simp [and_assoc, behind]
      · next behind => simp [and_assoc, behind]

private theorem collectFrom_forward (cursor : Cursor) {values : List α} {last : Cursor}
    (read : collectFrom goesOn rule progress cursor = .ok (values, last)) :
    cursor.Reaches last := by
  by_cases again : goesOn cursor = true
  · cases found : rule.run cursor with
    | error stop =>
      rw [collectFrom_error goesOn rule progress again found] at read
      cases read
    | ok step =>
      obtain ⟨value, rest⟩ := step
      rw [collectFrom_more goesOn rule progress again found] at read
      have shorter := progress _ _ _ again found
      split at read
      · cases read
      · next behind =>
        cases read
        exact (rule.forward found).trans (collectFrom_forward rest behind)
  · rw [collectFrom_stop goesOn rule progress (by simpa using again)] at read
    cases read
    exact .refl _
termination_by cursor.live.length

/-- The rule that reads values as long as the cursor allows. -/
def collect : Rule (List α) where
  run := collectFrom goesOn rule progress
  forward := collectFrom_forward goesOn rule progress _

/-- Where a repetition goes on, it is one round with the repetition behind it. -/
theorem run_collect_of_goesOn {cursor : Cursor} (again : goesOn cursor = true) :
    (collect goesOn rule progress).run cursor =
      (do let value ← rule
          let values ← collect goesOn rule progress
          pure (value :: values) : Rule (List α)).run cursor := by
  cases read : rule.run cursor with
  | error stop =>
    rw [run_bind_of_error read]
    exact collectFrom_error goesOn rule progress again read
  | ok step =>
    obtain ⟨value, rest⟩ := step
    rw [run_bind_of_ok read]
    refine (collectFrom_more goesOn rule progress again read).trans ?_
    cases behind : (collect goesOn rule progress).run rest with
    | error stop =>
      rw [run_bind_of_error behind]
      rw [show collectFrom goesOn rule progress rest = .error stop from behind]
    | ok step =>
      obtain ⟨values, last⟩ := step
      rw [run_bind_of_ok behind]
      rw [show collectFrom goesOn rule progress rest = .ok (values, last) from behind]
      rfl

end Collect

/-- The value that rounds from a cursor on make of a first one, as long as the cursor allows. -/
def iterateFrom (goesOn : Cursor → Bool) (rule : α → Rule α)
    (progress : ∀ value, Progresses goesOn (rule value)) (value : α) (cursor : Cursor) :
    Except Stop (α × Cursor) :=
  if _again : goesOn cursor = true then
    match _read : (rule value).run cursor with
    | .error stop => .error stop
    | .ok (next, rest) => iterateFrom goesOn rule progress next rest
  else .ok (value, cursor)
termination_by cursor.live.length
decreasing_by exact progress value _ _ _ ‹_› ‹_›

section Iterate

variable (goesOn : Cursor → Bool) (rule : α → Rule α)
  (progress : ∀ value, Progresses goesOn (rule value))

/-- An iteration ends where the cursor does not allow another round. -/
theorem iterateFrom_stop {value : α} {cursor : Cursor} (stops : goesOn cursor = false) :
    iterateFrom goesOn rule progress value cursor = .ok (value, cursor) := by
  rw [iterateFrom, dif_neg (by simp [stops])]

/-- An iteration refuses where a round refuses. -/
theorem iterateFrom_error {value : α} {cursor : Cursor} {stop : Stop}
    (again : goesOn cursor = true) (refused : (rule value).run cursor = .error stop) :
    iterateFrom goesOn rule progress value cursor = .error stop := by
  rw [iterateFrom, dif_pos again]
  split
  · next found => rw [refused] at found; cases found; rfl
  · next found => rw [refused] at found; cases found

/-- An iteration is one round and the iteration behind it. -/
theorem iterateFrom_more {value next : α} {cursor rest : Cursor} (again : goesOn cursor = true)
    (read : (rule value).run cursor = .ok (next, rest)) :
    iterateFrom goesOn rule progress value cursor = iterateFrom goesOn rule progress next rest := by
  rw [iterateFrom, dif_pos again]
  split
  · next found => rw [read] at found; cases found
  · next found => rw [read] at found; cases found; rfl

/-- An iteration ends with a value where it ends at once with it, or behind a round. -/
theorem iterateFrom_eq_ok_iff {value result : α} {cursor last : Cursor} :
    iterateFrom goesOn rule progress value cursor = .ok (result, last) ↔
      (goesOn cursor = false ∧ result = value ∧ last = cursor) ∨
        goesOn cursor = true ∧ ∃ next rest, (rule value).run cursor = .ok (next, rest) ∧
          iterateFrom goesOn rule progress next rest = .ok (result, last) := by
  cases again : goesOn cursor with
  | false =>
    rw [iterateFrom_stop goesOn rule progress again]
    simp [eq_comm]
  | true =>
    cases read : (rule value).run cursor with
    | error stop =>
      rw [iterateFrom_error goesOn rule progress again read]
      simp
    | ok step =>
      obtain ⟨next, rest⟩ := step
      rw [iterateFrom_more goesOn rule progress again read]
      simp [and_assoc]

/-- An iteration refuses where its first round or what is behind it refuses. -/
theorem iterateFrom_eq_error_iff {value : α} {cursor : Cursor} {stop : Stop} :
    iterateFrom goesOn rule progress value cursor = .error stop ↔
      goesOn cursor = true ∧ ((rule value).run cursor = .error stop ∨
        ∃ next rest, (rule value).run cursor = .ok (next, rest) ∧
          iterateFrom goesOn rule progress next rest = .error stop) := by
  cases again : goesOn cursor with
  | false =>
    rw [iterateFrom_stop goesOn rule progress again]
    simp
  | true =>
    cases read : (rule value).run cursor with
    | error stop =>
      rw [iterateFrom_error goesOn rule progress again read]
      simp
    | ok step =>
      obtain ⟨next, rest⟩ := step
      rw [iterateFrom_more goesOn rule progress again read]
      simp [and_assoc]

private theorem iterateFrom_forward (value : α) (cursor : Cursor) {result : α} {last : Cursor}
    (read : iterateFrom goesOn rule progress value cursor = .ok (result, last)) :
    cursor.Reaches last := by
  by_cases again : goesOn cursor = true
  · cases found : (rule value).run cursor with
    | error stop =>
      rw [iterateFrom_error goesOn rule progress again found] at read
      cases read
    | ok step =>
      obtain ⟨next, rest⟩ := step
      rw [iterateFrom_more goesOn rule progress again found] at read
      have shorter := progress value _ _ _ again found
      exact ((rule value).forward found).trans (iterateFrom_forward next rest read)
  · rw [iterateFrom_stop goesOn rule progress (by simpa using again)] at read
    cases read
    exact .refl _
termination_by cursor.live.length

/-- The rule that hands a value from round to round as long as the cursor allows. -/
def iterate (value : α) : Rule α where
  run := iterateFrom goesOn rule progress value
  forward := iterateFrom_forward goesOn rule progress value _

/-- Where an iteration goes on, it is one round with the iteration behind it. -/
theorem run_iterate_of_goesOn {value : α} {cursor : Cursor} (again : goesOn cursor = true) :
    (iterate goesOn rule progress value).run cursor =
      (rule value >>= iterate goesOn rule progress).run cursor := by
  cases read : (rule value).run cursor with
  | error stop =>
    rw [run_bind_of_error read]
    exact iterateFrom_error goesOn rule progress again read
  | ok step =>
    rw [run_bind_of_ok read]
    exact iterateFrom_more goesOn rule progress again read

end Iterate

end Rule

end BlockLanguage
