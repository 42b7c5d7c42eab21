/-
**A parse as the run of a machine.**

The rules of the grammar cannot miss a token, and they end by construction. The machine makes the
same parse in steps that can go wrong. It keeps an index into its tokens and counts the levels that
it is inside of; it builds statements and programs by operations that may be refused; and it goes
round a loop for as long as the token at its index tells it to. A run comes to a value, to an error
of the parse, or to a fault.

How many rounds a loop may take, and how many blocks may be parsed inside of each other, is given as
fuel. Where that is used up, a run comes to nothing: it ends if it comes to anything with some fuel.

* `Effect`, `Run`: steps, and steps of a parse.
* `parseStatement`, `parseBlock`, `parseProgram`: what the machine parses.
* `outcome`: what a parse of tokens comes to.
* `perform`, `serve`: requests to one machine, in any order, whatever has failed before.
-/

import BlockLanguage.Session

namespace BlockLanguage

/-- A parser with all its tokens and the index of the one that it stands at. -/
structure Machine where
  tokens : List Token
  current : Nat
  depth : Nat
  options : Options

namespace Machine

/-- What no run should come to. -/
inductive Fault
  /-- There is no token at the index. -/
  | noToken (index length : Nat)
  /-- An operation on statements or programs is refused. -/
  | refused (refusal : Refusal)
  /-- A round of a loop ends at the index at which it began. -/
  | stalled (index : Nat)
  /-- A level is left that was not entered. -/
  | noLevel
  /-- What was taken as an identifier is none. -/
  | noIdentifier (text : String)
  deriving DecidableEq

/-- Steps of the machine; they may come to a fault, or to nothing. -/
abbrev Effect := StateT Machine (ExceptT Fault Option)

/-- Steps of a parse, which may also end in an error of the parse. -/
abbrev Run := ExceptT ParseError Effect

/-! ### Single tokens -/

/-- The token at the index. -/
def peek : Effect Token := do
  let machine ← get
  match machine.tokens[machine.current]? with
  | some token => return token
  | none => throw (.noToken machine.current machine.tokens.length)

/-- Takes the token at the index; a mark of the end is never taken. -/
def advance : Effect Token := do
  let token ← peek
  if token.isEndOfInput then return token
  else
    modify fun machine => { machine with current := machine.current + 1 }
    return token

/-- Whether the token at the index marks the end. -/
def isAtEnd : Effect Bool := return (← peek).isEndOfInput

/-- Whether the token at the index has a lexeme. -/
def checkKeyword (lexeme : String) : Effect Bool := return (← peek).lexeme = lexeme

/-- Takes a lexeme if it stands at the index, and says whether it did. -/
def matchKeyword (lexeme : String) : Effect Bool := do
  if ← checkKeyword lexeme then
    let _ ← advance
    return true
  else return false

/-- The tokens from the index on. -/
def remaining : Effect (List Token) := do
  let machine ← get
  if machine.current ≤ machine.tokens.length then return machine.tokens.drop machine.current
  else throw (.noToken machine.current machine.tokens.length)

/-- The error of a cause that lies in the token at the index. -/
def error (cause : ParseError.Cause) (help : Option String) : Effect ParseError := do
  let token ← peek
  return ⟨cause, (← get).current, token.span, help⟩

/-- The error of a token that is not what the grammar expects. -/
def unexpected (expected : String) : Effect ParseError := do
  let token ← peek
  if token.isEndOfInput then error (.unexpectedEndOfInput expected) none
  else error (.unexpectedToken expected token.lexeme) none

/-- Takes a keyword. -/
def consumeKeyword (lexeme : String) : Run Unit := do
  if ← matchKeyword lexeme then return ()
  else throw (← unexpected s!"'{lexeme}'")

/-- Takes an identifier. -/
def consumeIdentifier : Run String := do
  if Word.isIdentifier (← peek).lexeme then return (← advance).lexeme
  else throw (← unexpected "an identifier")

/-- Takes a condition; the look-up is lenient, so that its spelling is checked besides. -/
def consumeCondition : Run Condition := do
  let token ← peek
  if token.isEndOfInput then throw (← unexpected "a condition")
  else
    match (Condition.parse? token.lexeme).filter fun _ => Word.isCondition token.lexeme with
    | some condition =>
      let _ ← advance
      return condition
    | none =>
      throw (← error (.invalidCondition token.lexeme)
        (some "conditions look like `next-is-empty`, `random` or `true`"))

/-- Takes the name that closes what the same name opened. -/
def consumeClosingName (name : String) : Run Unit := do
  let found := (← peek).lexeme
  if found = name then
    let _ ← advance
    return ()
  else if Word.isIdentifier found then
    throw (← error (.mismatchedClosingName name found) (some s!"close it with `END {name}`"))
  else throw (← unexpected s!"closing name '{name}'")

/-- Accepts only a mark of the end. -/
def expectEndOfInput : Run Unit := do
  if ← isAtEnd then return () else throw (← unexpected "end of input")

/-! ### Levels and loops -/

/-- What an operation gives; that it is refused is a fault. -/
def checked {α : Type} : Except Refusal α → Effect α
  | .ok value => return value
  | .error refusal => throw (.refused refusal)

@[inherit_doc checked]
def required {α : Type} (result : Except Refusal α) : Run α := ExceptT.lift (checked result)

/-- Goes one level deeper, if the limit allows it. -/
def enter : Run Unit := do
  let machine ← get
  let limit := machine.options.maxNestingDepth
  if limit ≤ machine.depth then throw (← error (.nestingTooDeep limit) none)
  else set { machine with depth := machine.depth + 1 }

/-- Leaves a level. -/
def leave : Effect Unit := do
  let machine ← get
  if machine.depth = 0 then throw .noLevel
  else set { machine with depth := machine.depth - 1 }

/-- Parses one level deeper, and leaves the level whether that has failed or not. -/
def nested {α : Type} (parse : Run α) : Run α := do
  enter
  let result ← ExceptT.lift parse.run
  leave
  ExceptT.mk (pure result)

/-- Ends a round of a loop that began at an index. -/
def endRound (start : Nat) : Effect Unit := do
  if (← get).current = start then throw (.stalled start)

/-- Changes a value in rounds for as long as the machine goes on. -/
def loop {α : Type} (goesOn : Effect Bool) (round : α → Run α) : (fuel : Nat) → α → Run α
  | 0, _ => liftM (none : Option α)
  | fuel + 1, value => do
    if ← goesOn then
      let start := (← get).current
      let next ← round value
      endRound start
      loop goesOn round fuel next
    else return value

/-! ### Statements and blocks -/

section Statement

variable (parseInner : Run Fragment)

/-- Parses the one or two blocks of an IF, given how a block inside is parsed. -/
def ifBranches (condition : Condition) : Run Fragment := do
  let thenBody ← parseInner
  if ← matchKeyword "ELSE" then
    let elseBody ← parseInner
    required (Fragment.ifElse condition thenBody elseBody)
  else required (Fragment.ifThen condition thenBody)

/-- Parses an IF, given how a block inside is parsed. -/
def ifStatement : Run Fragment := do
  consumeKeyword "IF"
  let condition ← consumeCondition
  consumeKeyword "THEN"
  let statement ← nested (ifBranches parseInner condition)
  consumeKeyword "END"
  consumeKeyword "IF"
  return statement

/-- Parses a WHILE, given how a block inside is parsed. -/
def whileStatement : Run Fragment := do
  consumeKeyword "WHILE"
  let condition ← consumeCondition
  consumeKeyword "DO"
  let body ← nested parseInner
  let statement ← required (Fragment.whileDo condition body)
  consumeKeyword "END"
  consumeKeyword "WHILE"
  return statement

/-- Parses a call. -/
def callStatement : Run Fragment := do
  let name ← consumeIdentifier
  required (Fragment.call name)

/-- Parses a statement, given how a block inside is parsed. -/
def statementWith : Run Fragment := do
  let front := (← peek).lexeme
  if !Word.isKeyword front && !Word.isIdentifier front then throw (← unexpected "a statement")
  else if ← checkKeyword "IF" then ifStatement parseInner
  else if ← checkKeyword "WHILE" then whileStatement parseInner
  else callStatement

/-- Parses a statement, and adds it to a block as its last. -/
def addStatement (block : Fragment) : Run Fragment := do
  let statement ← statementWith parseInner
  let length ← required block.length
  required (block.insert length statement)

end Statement

/-- Whether a block goes on at the index. -/
def blockGoesOn : Effect Bool := do
  if ← checkKeyword "END" then return false
  else if ← checkKeyword "ELSE" then return false
  else return !(← isAtEnd)

/-- Parses a block inside of which there may be so many others. -/
def blockWithin (fuel : Nat) : (blocks : Nat) → Run Fragment
  | 0 => liftM (none : Option Fragment)
  | blocks + 1 => loop blockGoesOn (addStatement (blockWithin fuel blocks)) fuel .empty

/-- Parses a block. -/
def parseBlock (fuel : Nat) : Run Fragment := blockWithin fuel fuel

/-- Parses a statement. -/
def parseStatement (fuel : Nat) : Run Fragment := statementWith (parseBlock fuel)

/-! ### Programs -/

/-- Adds a definition to a program; that it is refused for its name is an error of the parse. -/
def define (program : Program) (name : String) (body : Fragment) (position : Nat) (span : Span) :
    Run Program :=
  match program.define name body with
  | .ok longer => return longer
  | .error (.duplicate taken) => throw ⟨.duplicateInstruction taken, position, span, none⟩
  | .error (.reserved primitive) => throw ⟨.reservedName primitive, position, span, none⟩
  | .error refusal => required (.error refusal)

/-- Parses a definition, and adds it to a program. -/
def instruction (fuel : Nat) (program : Program) : Run Program := do
  consumeKeyword "INSTRUCTION"
  let position := (← get).current
  let span := (← peek).span
  let name ← consumeIdentifier
  if Word.isPrimitive name then throw ⟨.reservedName name, position, span, none⟩
  else
    consumeKeyword "IS"
    let body ← parseBlock fuel
    consumeKeyword "END"
    consumeClosingName name
    define program name body position span

/-- Whether a definition or the body of a program begins at the index. -/
def partBegins : Effect Bool := do
  if ← checkKeyword "INSTRUCTION" then return true
  else checkKeyword "BEGIN"

/-- Parses a program. -/
def parseProgram (fuel : Nat) : Run Program := do
  consumeKeyword "PROGRAM"
  let name ← consumeIdentifier
  consumeKeyword "IS"
  let program ← required (Program.new name)
  if ← partBegins then
    let program ← loop (checkKeyword "INSTRUCTION") (instruction fuel) fuel program
    consumeKeyword "BEGIN"
    let body ← parseBlock fuel
    let (program, _) ← required (program.swapBody body)
    consumeKeyword "END"
    consumeClosingName name
    expectEndOfInput
    return program
  else throw (← unexpected "'INSTRUCTION' or 'BEGIN'")

/-! ### Whole parses -/

/-- The machine in front of tokens. -/
def start (options : Options) (tokens : List Token) : Machine :=
  ⟨Token.complete tokens, 0, 0, options⟩

/-- Parses something behind which nothing may follow. -/
def whole {α : Type} (parse : Run α) : Run α := do
  let value ← parse
  expectEndOfInput
  return value

/-- What a parse of tokens comes to. -/
def outcome {α : Type} (parse : Run α) (options : Options) (tokens : List Token) :
    Option (Except Fault (Except ParseError α)) :=
  (parse.run.run' (start options tokens)).run

/-! ### Requests -/

/-- The identifier of a text that was taken as one. -/
def identifierOf (text : String) : Effect Identifier :=
  match Identifier.ofText? text with
  | some name => return name
  | none => throw (.noIdentifier text)

/-- Does what the machine is asked, and replies. -/
def perform (fuel : Nat) : Session.Request → Run Session.Reply
  | .peek => return .token (← peek)
  | .advance => return .token (← advance)
  | .isAtEnd => return .truth (← isAtEnd)
  | .checkKeyword lexeme => return .truth (← checkKeyword lexeme)
  | .matchKeyword lexeme => return .truth (← matchKeyword lexeme)
  | .consumeKeyword lexeme => do consumeKeyword lexeme; return .done
  | .consumeIdentifier => return .identifier (← identifierOf (← consumeIdentifier))
  | .consumeCondition => return .condition (← consumeCondition)
  | .consumeClosingName name => do consumeClosingName name; return .done
  | .expectEndOfInput => do expectEndOfInput; return .done
  | .unexpected expected => return .error (← unexpected expected)
  | .remaining => return .tokens (← remaining)
  | .statement => return .fragment (← parseStatement fuel)
  | .block => return .fragment (← parseBlock fuel)
  | .program => return .program (← parseProgram fuel)

/-- Does all that one machine is asked, and goes on behind what has failed. -/
def serve (fuel : Nat) :
    List Session.Request → Effect (List (Except ParseError Session.Reply))
  | [] => return []
  | request :: more => do
    let result ← (perform fuel request).run
    let results ← serve fuel more
    return result :: results

end Machine

end BlockLanguage
