/-
**The rules for single tokens.**

Each of them takes the token at the cursor if it is what the grammar expects there. Only the text of
a token counts, and whether it is the mark of the end.
-/

import BlockLanguage.Grammar.Rule

namespace BlockLanguage.Grammar

/-- Whether the token at a cursor has a lexeme. -/
def stands (lexeme : String) (cursor : Cursor) : Bool := cursor.front.lexeme = lexeme

/-- Takes a lexeme if it stands at the cursor, and says whether it did. -/
def optional (lexeme : String) : Rule Bool := do
  if stands lexeme (← Rule.here) then
    let _ ← Rule.advance
    return true
  else return false

/-- Takes a keyword. -/
def keyword (lexeme : String) : Rule Unit := do
  if stands lexeme (← Rule.here) then
    let _ ← Rule.advance
  else Rule.unexpected s!"'{lexeme}'"

/-- Takes an identifier. -/
def identifier : Rule Identifier := do
  match Identifier.ofText? (← Rule.front).lexeme with
  | some name =>
    let _ ← Rule.advance
    return name
  | none => Rule.unexpected "an identifier"

/-- Takes a condition, which has to be spelled exactly. -/
def condition : Rule Condition := do
  let cursor ← Rule.here
  if cursor.atEnd then Rule.unexpected "a condition"
  else
    match Condition.ofText? cursor.front.lexeme with
    | some found =>
      let _ ← Rule.advance
      return found
    | none =>
      Rule.refuse (·.error (.invalidCondition cursor.front.lexeme)
        (some "conditions look like `next-is-empty`, `random` or `true`"))

/-- Takes the name that closes what the same name opened. -/
def closingName (name : String) : Rule Unit := do
  let token ← Rule.front
  if token.lexeme = name then
    let _ ← Rule.advance
  else if Word.isIdentifier token.lexeme then
    Rule.refuse (·.error (.mismatchedClosingName name token.lexeme)
      (some s!"close it with `END {name}`"))
  else Rule.unexpected s!"closing name '{name}'"

/-- Accepts only the mark of the end, and does not take it. -/
def endOfInput : Rule Unit := do
  if (← Rule.here).atEnd then return () else Rule.unexpected "end of input"

/-- A rule with nothing behind what it reads. -/
def whole {α : Type} (rule : Rule α) : Rule α := do
  let value ← rule
  endOfInput
  return value

/-! ### What the rules come to -/

theorem stands_iff {lexeme : String} {cursor : Cursor} :
    stands lexeme cursor = true ↔ cursor.front.lexeme = lexeme := decide_eq_true_iff

theorem run_optional (lexeme : String) (cursor : Cursor) :
    (optional lexeme).run cursor =
      if stands lexeme cursor then .ok (true, cursor.advance) else .ok (false, cursor) := by
  rw [optional, Rule.run_bind_of_ok (Rule.run_here cursor)]
  split <;> rfl

theorem run_keyword (lexeme : String) (cursor : Cursor) :
    (keyword lexeme).run cursor =
      if stands lexeme cursor then .ok ((), cursor.advance)
      else .error ⟨cursor.unexpected s!"'{lexeme}'", cursor⟩ := by
  rw [keyword, Rule.run_bind_of_ok (Rule.run_here cursor)]
  split <;> rfl

theorem run_identifier (cursor : Cursor) :
    identifier.run cursor =
      match Identifier.ofText? cursor.front.lexeme with
      | some name => .ok (name, cursor.advance)
      | none => .error ⟨cursor.unexpected "an identifier", cursor⟩ := by
  rw [identifier, Rule.run_bind_of_ok (Rule.run_front cursor)]
  split <;> rfl

theorem run_condition (cursor : Cursor) :
    condition.run cursor =
      if cursor.atEnd then .error ⟨cursor.unexpected "a condition", cursor⟩
      else
        match Condition.ofText? cursor.front.lexeme with
        | some found => .ok (found, cursor.advance)
        | none =>
          .error ⟨cursor.error (.invalidCondition cursor.front.lexeme)
            (some "conditions look like `next-is-empty`, `random` or `true`"), cursor⟩ := by
  rw [condition, Rule.run_bind_of_ok (Rule.run_here cursor)]
  split
  · rfl
  · split <;> rfl

theorem run_closingName (name : String) (cursor : Cursor) :
    (closingName name).run cursor =
      if cursor.front.lexeme = name then .ok ((), cursor.advance)
      else if Word.isIdentifier cursor.front.lexeme then
        .error ⟨cursor.error (.mismatchedClosingName name cursor.front.lexeme)
          (some s!"close it with `END {name}`"), cursor⟩
      else .error ⟨cursor.unexpected s!"closing name '{name}'", cursor⟩ := by
  rw [closingName, Rule.run_bind_of_ok (Rule.run_front cursor)]
  split
  · rfl
  · split <;> rfl

theorem run_endOfInput (cursor : Cursor) :
    endOfInput.run cursor =
      if cursor.atEnd then .ok ((), cursor)
      else .error ⟨cursor.unexpected "end of input", cursor⟩ := by
  rw [endOfInput, Rule.run_bind_of_ok (Rule.run_here cursor)]
  split <;> rfl

end BlockLanguage.Grammar
