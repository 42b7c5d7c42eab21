/-
**Building and taking apart statements.**

A fragment is a block or a single statement; it is what these operations take and give. A block is
changed by inserting a statement and by removing one. IF, WHILE and call are assembled from a
condition or name and from blocks, and disassembled into them again. Every operation checks what it
is given before it changes anything: it either gives its result or is refused. A refusal names the
first check that failed, with what its wording needs.
-/

import BlockLanguage.Tree

namespace BlockLanguage

/-! ### Refusals -/

/-- The check that failed. -/
inductive Refusal
  /-- Of the statement worked on, or of a body handed in, another kind is required. -/
  | wrongKind (expected found : Kind)
  /-- A block is no statement of a block. -/
  | blockInBlock
  /-- There is no place for a new statement at this position. -/
  | noPlace (position length : Nat)
  /-- There is no statement at this position. -/
  | noStatement (position length : Nat)
  /-- What a call calls is not an identifier. -/
  | calledName (text : String)
  /-- The name of a program is not an identifier. -/
  | programName (text : String)
  /-- The name of a definition is not an identifier. -/
  | definedName (text : String)
  /-- The body of a definition is not a block. -/
  | definedBody (text : String)
  /-- The body of a program is not a block. -/
  | programBody
  /-- The name of a definition is built in. -/
  | reserved (text : String)
  /-- The name of a definition is taken. -/
  | duplicate (text : String)
  deriving DecidableEq

namespace Refusal

/-- The wording of a refusal. -/
def message : Refusal → String
  | wrongKind expected found => s!"expected a {expected.text} statement, found {found.text}"
  | blockInBlock => "add_to_block: child must not be a BLOCK"
  | noPlace position length =>
    s!"add_to_block: position {position} out of range for block of length {length}"
  | noStatement position length =>
    s!"remove_from_block: position {position} out of range for block of length {length}"
  | calledName text => s!"assemble_call: '{text}' is not an IDENTIFIER"
  | programName text => s!"Program::new: '{text}' is not an IDENTIFIER"
  | definedName text => s!"define_instruction: '{text}' is not an IDENTIFIER"
  | definedBody text => s!"define_instruction: body of '{text}' must be a BLOCK"
  | programBody => "swap_body: program body must be a BLOCK"
  | reserved text => s!"'{text}' is a primitive instruction and cannot be redefined"
  | duplicate text => s!"instruction '{text}' is already defined"

end Refusal

/-! ### Fragments -/

/-- A block or a single statement. -/
inductive Fragment
  | block (statements : Block)
  | statement (statement : Statement)
  deriving DecidableEq

namespace Fragment

/-- The block without statements. -/
def empty : Fragment := block []

/-- A fragment as a tree. -/
def tree : Fragment → Tree
  | block statements => Block.tree statements
  | statement s => s.tree

/-- The kind of a fragment. -/
def kind (fragment : Fragment) : Kind := fragment.tree.kind

/-- How deep IF and WHILE are nested in a fragment. -/
def depth : Fragment → Nat
  | block statements => Block.depth statements
  | statement s => s.depth

/-- The lexemes that spell a fragment. -/
def lexemes : Fragment → List String
  | block statements => Block.lexemes statements
  | statement s => s.lexemes

/-- The statements that a fragment consists of. -/
def statements : Fragment → Block
  | block statements => statements
  | statement s => [s]

/-! ### Blocks -/

/-- The statements of a block. -/
def asBlock : Fragment → Except Refusal Block
  | block statements => .ok statements
  | statement s => .error (.wrongKind .block s.tree.kind)

/-- The statement that may stand in a block. -/
def asStatement : Fragment → Except Refusal Statement
  | block _ => .error .blockInBlock
  | statement s => .ok s

/-- Whether a fragment is the block without statements. -/
def isEmptyBlock (fragment : Fragment) : Bool := fragment = empty

/-- The number of statements of a block. -/
def length (self : Fragment) : Except Refusal Nat := do
  return (← self.asBlock).length

/-- The block with a statement inserted at a position, which may be the one behind its last. -/
def insert (self : Fragment) (position : Nat) (child : Fragment) : Except Refusal Fragment := do
  let statements ← self.asBlock
  let added ← child.asStatement
  if position ≤ statements.length then
    return block (statements.take position ++ added :: statements.drop position)
  else throw (.noPlace position statements.length)

/-- The statement at a position, and the block without it. -/
def remove (self : Fragment) (position : Nat) : Except Refusal (Fragment × Fragment) := do
  let statements ← self.asBlock
  match statements[position]? with
  | some removed => return (statement removed, block (statements.eraseIdx position))
  | none => throw (.noStatement position statements.length)

/-- A statement that is there is removed from a block. -/
theorem remove_of_some {statements : Block} {position : Nat} {s : Statement}
    (found : statements[position]? = some s) :
    (block statements).remove position =
      .ok (statement s, block (statements.eraseIdx position)) := by
  simp [remove, asBlock, bind, Except.bind, pure, Except.pure, found]

/-- Nothing is removed at a position behind the statements of a block. -/
theorem remove_of_none {statements : Block} {position : Nat}
    (absent : statements[position]? = none) :
    (block statements).remove position = .error (.noStatement position statements.length) := by
  simp [remove, asBlock, bind, Except.bind, throw, throwThe, MonadExceptOf.throw, absent]

/-! ### IF -/

/-- The IF with a condition and a body. -/
def ifThen (condition : Condition) (body : Fragment) : Except Refusal Fragment := do
  return statement (.ifThen condition (← body.asBlock))

/-- The condition and the body of an IF without ELSE. -/
def takeIfThen : Fragment → Except Refusal (Condition × Fragment)
  | statement (.ifThen condition body) => .ok (condition, block body)
  | other => .error (.wrongKind .ifThen other.kind)

/-- The IF with a condition and two bodies. -/
def ifElse (condition : Condition) (thenBody elseBody : Fragment) : Except Refusal Fragment := do
  return statement (.ifElse condition (← thenBody.asBlock) (← elseBody.asBlock))

/-- The condition and the bodies of an IF with ELSE. -/
def takeIfElse : Fragment → Except Refusal (Condition × Fragment × Fragment)
  | statement (.ifElse condition thenBody elseBody) =>
    .ok (condition, block thenBody, block elseBody)
  | other => .error (.wrongKind .ifElse other.kind)

/-! ### WHILE -/

/-- The WHILE with a condition and a body. -/
def whileDo (condition : Condition) (body : Fragment) : Except Refusal Fragment := do
  return statement (.whileDo condition (← body.asBlock))

/-- The condition and the body of a WHILE. -/
def takeWhileDo : Fragment → Except Refusal (Condition × Fragment)
  | statement (.whileDo condition body) => .ok (condition, block body)
  | other => .error (.wrongKind .whileDo other.kind)

/-! ### Calls -/

/-- The call of the instruction with a name. -/
def call (text : String) : Except Refusal Fragment :=
  match Identifier.ofText? text with
  | some name => .ok (statement (.call name))
  | none => .error (.calledName text)

/-- The name that a call calls. -/
def takeCall : Fragment → Except Refusal Identifier
  | statement (.call name) => .ok name
  | other => .error (.wrongKind .call other.kind)

end Fragment

end BlockLanguage
