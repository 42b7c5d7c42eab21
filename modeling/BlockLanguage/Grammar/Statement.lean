/-
**The rules for statements and blocks.**

    block      =  { statement }
    statement  =  "IF" condition "THEN" block [ "ELSE" block ] "END" "IF"
               |  "WHILE" condition "DO" block "END" "WHILE"
               |  identifier

The blocks inside an IF or WHILE stand one level deeper than it does. Where no level is left, the
first token of such a block is refused.
-/

import BlockLanguage.Grammar.Lexical
import BlockLanguage.Statement

namespace BlockLanguage.Grammar

section Statement

variable (nested : Rule Block)

/-- Takes the rest of an IF, its keyword included. -/
def ifStatement : Rule Statement := do
  keyword "IF"
  let test ← condition
  keyword "THEN"
  let thenBody ← nested
  if ← optional "ELSE" then
    let elseBody ← nested
    keyword "END"
    keyword "IF"
    return .ifElse test thenBody elseBody
  else
    keyword "END"
    keyword "IF"
    return .ifThen test thenBody

/-- Takes the rest of a WHILE, its keyword included. -/
def whileStatement : Rule Statement := do
  keyword "WHILE"
  let test ← condition
  keyword "DO"
  let body ← nested
  keyword "END"
  keyword "WHILE"
  return .whileDo test body

/-- Takes the name of a call. -/
def callStatement : Rule Statement := do
  return .call (← identifier)

/-- Takes a statement, given the rule for the blocks inside. -/
def statementWith : Rule Statement := do
  let token ← Rule.front
  if token.lexeme = "IF" then ifStatement nested
  else if token.lexeme = "WHILE" then whileStatement nested
  else if Word.isKeyword token.lexeme || Word.isIdentifier token.lexeme then callStatement
  else Rule.unexpected "a statement"

end Statement

/-! ### What the rules come to -/

theorem run_statementWith (nested : Rule Block) (cursor : Cursor) :
    (statementWith nested).run cursor =
      if cursor.front.lexeme = "IF" then (ifStatement nested).run cursor
      else if cursor.front.lexeme = "WHILE" then (whileStatement nested).run cursor
      else if Word.isKeyword cursor.front.lexeme || Word.isIdentifier cursor.front.lexeme then
        callStatement.run cursor
      else .error ⟨cursor.unexpected "a statement", cursor⟩ := by
  rw [statementWith, Rule.run_bind_of_ok (Rule.run_front cursor)]
  split
  · rfl
  · split
    · rfl
    · split <;> rfl

/-! ### Every statement takes a token -/

theorem takesToken_keyword (lexeme : String) : (keyword lexeme).TakesToken := by
  intro cursor value rest ahead read
  simp only [keyword, Rule.run_bind, Rule.run_here] at read
  split at read
  · cases read
    exact Cursor.length_advance_lt ahead
  · cases read

theorem takesToken_identifier : identifier.TakesToken := by
  refine Rule.takesToken_front_bind fun token => ?_
  split
  · exact Rule.takesToken_advance.bind _
  · exact Rule.takesToken_refuse _

theorem takesToken_statementWith (nested : Rule Block) : (statementWith nested).TakesToken := by
  refine Rule.takesToken_front_bind fun token => ?_
  split
  · exact (takesToken_keyword _).bind _
  · split
    · exact (takesToken_keyword _).bind _
    · split
      · exact takesToken_identifier.bind _
      · exact Rule.takesToken_refuse _

/-! ### Blocks -/

/-- Whether a block goes on at a cursor: it ends before END, before ELSE, and with the input. -/
def blockGoesOn (cursor : Cursor) : Bool :=
  !stands "END" cursor && !stands "ELSE" cursor && !cursor.atEnd

theorem progresses_block (nested : Rule Block) :
    Rule.Progresses blockGoesOn (statementWith nested) := by
  intro cursor value rest again read
  refine takesToken_statementWith nested cursor value rest (fun none => ?_) read
  simp [blockGoesOn, Cursor.atEnd, none] at again

/-- Takes a block, given the rule for the blocks inside. -/
def blockWith (nested : Rule Block) : Rule Block :=
  Rule.collect blockGoesOn (statementWith nested) (progresses_block nested)

section Block

variable {nested : Rule Block} {cursor last : Cursor} {s : Statement} {more : Block} {stop : Stop}

theorem blockWith_eq_ok_nil_iff :
    (blockWith nested).run cursor = .ok ([], last) ↔ blockGoesOn cursor = false ∧ last = cursor :=
  Rule.collectFrom_eq_ok_nil_iff _ _ _

theorem blockWith_eq_ok_cons_iff :
    (blockWith nested).run cursor = .ok (s :: more, last) ↔
      blockGoesOn cursor = true ∧ ∃ rest, (statementWith nested).run cursor = .ok (s, rest) ∧
        (blockWith nested).run rest = .ok (more, last) :=
  Rule.collectFrom_eq_ok_cons_iff _ _ _

theorem blockWith_eq_error_iff :
    (blockWith nested).run cursor = .error stop ↔
      blockGoesOn cursor = true ∧ ((statementWith nested).run cursor = .error stop ∨
        ∃ s rest, (statementWith nested).run cursor = .ok (s, rest) ∧
          (blockWith nested).run rest = .error stop) :=
  Rule.collectFrom_eq_error_iff _ _ _

end Block

/-- Refuses the first token of a block that is nested too deep. -/
def tooDeep (limit : Nat) : Rule Block :=
  Rule.refuse (·.error (.nestingTooDeep limit) none)

/-- Takes a block inside an IF or WHILE that stands where so many levels are left. -/
def inner (limit : Nat) : (levels : Nat) → Rule Block
  | 0 => tooDeep limit
  | levels + 1 => blockWith (Rule.delay fun _ => inner limit levels)

/-- Takes a block in which IF and WHILE are nested within the limit. -/
def block (limit : Nat) : Rule Block := blockWith (inner limit limit)

/-- Takes a statement in which IF and WHILE are nested within the limit. -/
def statement (limit : Nat) : Rule Statement := statementWith (inner limit limit)

end BlockLanguage.Grammar
