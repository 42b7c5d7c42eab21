/-
**The rules for programs.**

    program     =  "PROGRAM" name "IS" { definition } "BEGIN" block "END" name
    definition  =  "INSTRUCTION" name "IS" block "END" name

Both names of a program or definition are the same identifier. The name of a definition is not built
in, which is checked as soon as it is read, and no two definitions have the same name, which is
checked behind the second of them; either error lies in the name.
-/

import BlockLanguage.Grammar.Statement
import BlockLanguage.Program

namespace BlockLanguage.Grammar

/-- Takes a definition and adds it to those before it. -/
def definition (limit : Nat) (before : Context) : Rule Context := do
  keyword "INSTRUCTION"
  let named ← Rule.here
  let name ← identifier
  if free : Word.isPrimitive name.text = false then
    keyword "IS"
    let body ← block limit
    keyword "END"
    closingName name.text
    if (before.find? name.text).isSome then
      Rule.refuse fun _ => named.error (.duplicateInstruction name.text) none
    else return before.put name body free
  else Rule.refuse fun _ => named.error (.reservedName name.text) none

theorem progresses_definition (limit : Nat) (before : Context) :
    Rule.Progresses (stands "INSTRUCTION") (definition limit before) := by
  intro cursor value rest again read
  by_cases ahead : cursor.live = []
  · have stays : cursor.advance.front = cursor.front := by
      obtain ⟨position, live, sentinel, beyond, live_open, sentinel_closes⟩ := cursor
      cases ahead
      rfl
    have lexeme : cursor.front.lexeme = "INSTRUCTION" := by simpa [stands] using again
    have refused : Identifier.ofText? "INSTRUCTION" = none := by
      rw [Identifier.ofText?_eq_none_iff]
      decide +kernel
    simp [definition, keyword, identifier, Rule.run_bind, again, stays, lexeme, refused,
      Rule.unexpected] at read
  · exact (takesToken_keyword _).bind _ cursor value rest ahead read

/-- Takes definitions, and gives the context that they make up. -/
def definitions (limit : Nat) : Rule Context :=
  Rule.iterate (stands "INSTRUCTION") (definition limit) (progresses_definition limit) .empty

/-- Takes a program, behind which nothing may follow. -/
def program (limit : Nat) : Rule Program := do
  keyword "PROGRAM"
  let name ← identifier
  keyword "IS"
  let cursor ← Rule.here
  if stands "INSTRUCTION" cursor || stands "BEGIN" cursor then
    let context ← definitions limit
    keyword "BEGIN"
    let body ← block limit
    keyword "END"
    closingName name.text
    endOfInput
    return ⟨name, context, body⟩
  else Rule.unexpected "'INSTRUCTION' or 'BEGIN'"

end BlockLanguage.Grammar
