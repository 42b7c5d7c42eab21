/-
**Stores of statements and programs.**

A store has named slots: each holds a fragment, at first the empty block, and besides a program, at
first none. An operation works on slots. What it moves out of a slot leaves the empty block behind,
so that no part ever stands in two places; what it refuses leaves the whole store as it was.
-/

import BlockLanguage.Parse

namespace BlockLanguage

/-- Slots with fragments and slots with programs, by name. -/
structure Store where
  fragments : String → Fragment
  programs : String → Option Program

namespace Store

/-- The store in which nothing has been built. -/
def fresh : Store := ⟨fun _ => .empty, fun _ => none⟩

/-- The store with a fragment in a slot. -/
def put (store : Store) (slot : String) (fragment : Fragment) : Store :=
  { store with fragments := fun asked => if asked = slot then fragment else store.fragments asked }

/-- The store with an empty block in a slot. -/
def clear (store : Store) (slot : String) : Store := store.put slot .empty

/-- The store with a program in a slot. -/
def putProgram (store : Store) (slot : String) (program : Program) : Store :=
  { store with
    programs := fun asked => if asked = slot then some program else store.programs asked }

/-! ### What stands in a slot -/

section Slots

variable (store : Store) {here asked : String}

@[simp] theorem fragments_put (here : String) (fragment : Fragment) :
    (store.put here fragment).fragments here = fragment := if_pos rfl

theorem fragments_put_of_ne (other : asked ≠ here) (fragment : Fragment) :
    (store.put here fragment).fragments asked = store.fragments asked := if_neg other

@[simp] theorem programs_put (here : String) (fragment : Fragment) :
    (store.put here fragment).programs = store.programs := rfl

@[simp] theorem fragments_clear (here : String) : (store.clear here).fragments here = .empty :=
  fragments_put store here .empty

theorem fragments_clear_of_ne (other : asked ≠ here) :
    (store.clear here).fragments asked = store.fragments asked := fragments_put_of_ne store other _

@[simp] theorem programs_clear (here : String) : (store.clear here).programs = store.programs := rfl

@[simp] theorem programs_putProgram (here : String) (program : Program) :
    (store.putProgram here program).programs here = some program := if_pos rfl

theorem programs_putProgram_of_ne (other : asked ≠ here) (program : Program) :
    (store.putProgram here program).programs asked = store.programs asked := if_neg other

@[simp] theorem fragments_putProgram (here : String) (program : Program) :
    (store.putProgram here program).fragments = store.fragments := rfl

end Slots

/-! ### Operations -/

/-- What changes a store. The first slot is the one worked on. -/
inductive Operation
  | new (self : String)
  | add (self : String) (position : Nat) (child : String)
  | remove (self : String) (position : Nat) (target : String)
  | assembleIf (self : String) (condition : Condition) (body : String)
  | assembleIfElse (self : String) (condition : Condition) (thenBody elseBody : String)
  | assembleWhile (self : String) (condition : Condition) (body : String)
  | assembleCall (self name : String)
  | disassembleIf (self body : String)
  | disassembleIfElse (self thenBody elseBody : String)
  | disassembleWhile (self body : String)
  | disassembleCall (self : String)
  | transfer (self source : String)
  | clone (self source : String)
  | parse (self : String) (form : Fragment.Form) (text : String)
  | newProgram (self name : String)
  | parseProgram (self text : String)
  | define (self name body : String)
  | undefine (self name target : String)
  | swapBody (self body : String)
  | cloneProgram (self copy : String)

/-- What an operation answers. -/
inductive Answer
  | done
  | truth (holds : Bool)
  | condition (condition : Condition)
  | name (name : Identifier)
  deriving DecidableEq

/-- Why an operation does not take place. -/
inductive Failure
  | refused (refusal : Refusal)
  | unparsable (error : ParseError)
  | noProgram
  deriving DecidableEq

/-- The result of a check, as the result of an operation. -/
def checked {α : Type} (result : Except Refusal α) : Except Failure α := result.mapError .refused

/-- The result of a parse, as the result of an operation. -/
def parsed {α : Type} (result : Except ParseError α) : Except Failure α :=
  result.mapError .unparsable

/-- The program in a slot. -/
def program (store : Store) (slot : String) : Except Failure Program :=
  match store.programs slot with
  | some program => .ok program
  | none => .error .noProgram

/-- The answer to an operation and the store behind it, unless it does not take place. -/
def perform (store : Store) : Operation → Except Failure (Answer × Store)
  | .new self => return (.done, store.clear self)
  | .add self position child => do
    let block ← checked ((store.fragments self).insert position (store.fragments child))
    return (.done, (store.clear child).put self block)
  | .remove self position target => do
    let (removed, block) ← checked ((store.fragments self).remove position)
    return (.done, (store.put self block).put target removed)
  | .assembleIf self condition body => do
    let made ← checked (Fragment.ifThen condition (store.fragments body))
    return (.done, (store.clear body).put self made)
  | .assembleIfElse self condition thenBody elseBody => do
    let made ← checked
      (Fragment.ifElse condition (store.fragments thenBody) (store.fragments elseBody))
    return (.done, ((store.clear thenBody).clear elseBody).put self made)
  | .assembleWhile self condition body => do
    let made ← checked (Fragment.whileDo condition (store.fragments body))
    return (.done, (store.clear body).put self made)
  | .assembleCall self name => do
    let made ← checked (Fragment.call name)
    return (.done, store.put self made)
  | .disassembleIf self body => do
    let (condition, part) ← checked (store.fragments self).takeIfThen
    return (.condition condition, (store.clear self).put body part)
  | .disassembleIfElse self thenBody elseBody => do
    let (condition, thenPart, elsePart) ← checked (store.fragments self).takeIfElse
    return (.condition condition, ((store.clear self).put thenBody thenPart).put elseBody elsePart)
  | .disassembleWhile self body => do
    let (condition, part) ← checked (store.fragments self).takeWhileDo
    return (.condition condition, (store.clear self).put body part)
  | .disassembleCall self => do
    let name ← checked (store.fragments self).takeCall
    return (.name name, store.clear self)
  | .transfer self source =>
    return (.done, (store.clear source).put self (store.fragments source))
  | .clone self source => return (.done, store.put self (store.fragments source))
  | .parse self form text => do
    let fragment ← parsed (Fragment.parse form {} (tokenize text))
    return (.done, store.put self fragment)
  | .newProgram self name => do
    let made ← checked (Program.new name)
    return (.done, store.putProgram self made)
  | .parseProgram self text => do
    let made ← parsed (Program.parse {} (tokenize text))
    return (.done, store.putProgram self made)
  | .define self name body => do
    let before ← store.program self
    let made ← checked (before.define name (store.fragments body))
    return (.done, (store.clear body).putProgram self made)
  | .undefine self name target => do
    let before ← store.program self
    match before.instruction? name with
    | none => return (.truth false, store)
    | some body =>
      return (.truth true, (store.putProgram self (before.undefine name)).put target (.block body))
  | .swapBody self body => do
    let before ← store.program self
    let (made, old) ← checked (before.swapBody (store.fragments body))
    return (.done, (store.putProgram self made).put body old)
  | .cloneProgram self copy => do
    let program ← store.program self
    return (.done, store.putProgram copy program)

/-- The store behind an operation, whether or not it takes place. -/
def after (store : Store) (operation : Operation) : Store :=
  match store.perform operation with
  | .ok (_, changed) => changed
  | .error _ => store

/-- The store behind operations, one after another. -/
def run (store : Store) (operations : List Operation) : Store := operations.foldl after store

end Store

end BlockLanguage
