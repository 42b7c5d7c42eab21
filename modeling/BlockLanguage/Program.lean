/-
**Programs.**

A program has a name, a context of instructions that it defines, and a block as its body. A
definition is refused if its name is no identifier, if its body is no block, if the name is built
in, or if it is taken; the first of these that holds is the one reported.
-/

import BlockLanguage.Context
import BlockLanguage.Fragment

namespace BlockLanguage

/-- A program. -/
structure Program where
  name : Identifier
  context : Context
  body : Block
  deriving DecidableEq

namespace Program

/-- The program of a name that defines nothing and does nothing. -/
def new (text : String) : Except Refusal Program :=
  match Identifier.ofText? text with
  | some name => .ok ⟨name, .empty, []⟩
  | none => .error (.programName text)

/-- The body of an instruction that a program defines. -/
def instruction? (program : Program) (name : String) : Option Block := program.context.find? name

/-- The program with one more definition. -/
def define (program : Program) (text : String) (body : Fragment) : Except Refusal Program :=
  match Identifier.ofText? text with
  | none => .error (.definedName text)
  | some name =>
    match body with
    | .statement _ => .error (.definedBody text)
    | .block statements =>
      if free : Word.isPrimitive name.text = false then
        if (program.instruction? text).isSome then .error (.duplicate text)
        else .ok { program with context := program.context.put name statements free }
      else .error (.reserved text)

/-- A definition takes place for a block under an identifier that is neither built in nor taken. -/
theorem define_eq_ok_iff {program made : Program} {text : String} {body : Fragment} :
    program.define text body = .ok made ↔
      ∃ (key : Identifier) (statements : Block) (free : Word.isPrimitive key.text = false),
        key.text = text ∧ body = .block statements ∧ program.instruction? text = none ∧
          made = { program with context := program.context.put key statements free } := by
  constructor
  · intro defined
    unfold define at defined
    split at defined
    · cases defined
    · next key named =>
      obtain rfl := Identifier.ofText?_eq_some_iff.mp named
      split at defined
      · cases defined
      · next statements =>
        split at defined
        · next free =>
          split at defined
          · cases defined
          · next absent =>
            cases defined
            exact ⟨key, statements, free, rfl, rfl, Option.not_isSome_iff_eq_none.mp absent, rfl⟩
        · cases defined
  · rintro ⟨key, statements, free, rfl, rfl, absent, rfl⟩
    simp [define, free, absent]

/-- The program without the definition of a name. -/
def undefine (program : Program) (name : String) : Program :=
  { program with context := program.context.remove name }

/-- The program with another body, and the body that it had. -/
def swapBody (program : Program) : Fragment → Except Refusal (Program × Fragment)
  | .block statements => .ok ({ program with body := statements }, .block program.body)
  | .statement _ => .error .programBody

/-- How deep IF and WHILE are nested in a program, the definitions included. -/
def depth (program : Program) : Nat :=
  program.context.entries.foldr (fun entry deepest => max (Block.depth entry.2) deepest)
    (Block.depth program.body)

end Program

end BlockLanguage
