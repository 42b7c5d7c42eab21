/-
**What stops a parse.**

A parse ends at the first token that no reading allows. The error names the cause, with what its
wording needs, and the token: its index and its place in the source text.
-/

import BlockLanguage.Token

namespace BlockLanguage

namespace ParseError

/-- Why a parse cannot go on. -/
inductive Cause
  | unexpectedToken (expected found : String)
  | invalidCondition (found : String)
  | duplicateInstruction (name : String)
  | reservedName (name : String)
  | mismatchedClosingName (expected found : String)
  | unexpectedEndOfInput (expected : String)
  | nestingTooDeep (limit : Nat)
  deriving DecidableEq

namespace Cause

/-- The code under which a cause is listed. -/
def code : Cause → String
  | unexpectedToken _ _ => "BL0001"
  | invalidCondition _ => "BL0002"
  | duplicateInstruction _ => "BL0003"
  | reservedName _ => "BL0004"
  | mismatchedClosingName _ _ => "BL0005"
  | unexpectedEndOfInput _ => "BL0006"
  | nestingTooDeep _ => "BL0007"

/-- The wording of a cause. -/
def message : Cause → String
  | unexpectedToken expected found => s!"expected {expected}, found '{found}'"
  | invalidCondition found => s!"'{found}' is not a valid condition"
  | duplicateInstruction name => s!"instruction '{name}' is defined more than once"
  | reservedName name => s!"'{name}' is a primitive instruction and cannot be redefined"
  | mismatchedClosingName expected found => s!"closing name '{found}' does not match '{expected}'"
  | unexpectedEndOfInput expected => s!"unexpected end of input, expected {expected}"
  | nestingTooDeep limit => s!"IF / WHILE nesting deeper than {limit} levels"

end Cause

end ParseError

/-- The error that ends a parse. -/
structure ParseError where
  cause : ParseError.Cause
  position : Nat
  span : Span
  help : Option String := none
  deriving DecidableEq

namespace ParseError

/-- The code of an error. -/
def code (error : ParseError) : String := error.cause.code

/-- The wording of an error. -/
def message (error : ParseError) : String := error.cause.message

end ParseError

end BlockLanguage
