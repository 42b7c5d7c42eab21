/-
**Statements and blocks.**

A block is a list of statements; a statement is a call of an instruction, or an IF or WHILE with
blocks inside. `depth` counts how deep IF and WHILE are nested, and `lexemes` lists the words that
spell a statement. Equality of statements is decidable: `same` compares two of them from the root
down, and `same_iff` says that it finds exactly the equal ones.
-/

import BlockLanguage.Word

namespace BlockLanguage

/-- A statement. -/
inductive Statement
  | ifThen (condition : Condition) (body : List Statement)
  | ifElse (condition : Condition) (thenBody elseBody : List Statement)
  | whileDo (condition : Condition) (body : List Statement)
  | call (name : Identifier)

/-- Statements that run one after another. -/
abbrev Block := List Statement

/-! ### Equality -/

mutual

/-- Whether two statements are built alike. -/
def Statement.same : Statement → Statement → Bool
  | .ifThen c body, .ifThen c' body' => c = c' && Block.same body body'
  | .ifElse c thenBody elseBody, .ifElse c' thenBody' elseBody' =>
    c = c' && Block.same thenBody thenBody' && Block.same elseBody elseBody'
  | .whileDo c body, .whileDo c' body' => c = c' && Block.same body body'
  | .call name, .call name' => name = name'
  | _, _ => false

/-- Whether two blocks are built alike. -/
def Block.same : List Statement → List Statement → Bool
  | [], [] => true
  | first :: more, first' :: more' => first.same first' && Block.same more more'
  | _, _ => false

end

mutual

theorem Statement.same_iff : ∀ first second : Statement, first.same second = true ↔ first = second
  | .ifThen _ body, .ifThen _ body' => by simp [Statement.same, Block.same_iff body body']
  | .ifElse _ thenBody elseBody, .ifElse _ thenBody' elseBody' => by
    simp [Statement.same, Block.same_iff thenBody thenBody', Block.same_iff elseBody elseBody',
      and_assoc]
  | .whileDo _ body, .whileDo _ body' => by simp [Statement.same, Block.same_iff body body']
  | .call _, .call _ => by simp [Statement.same]
  | .ifThen _ _, .ifElse _ _ _ | .ifThen _ _, .whileDo _ _ | .ifThen _ _, .call _
  | .ifElse _ _ _, .ifThen _ _ | .ifElse _ _ _, .whileDo _ _ | .ifElse _ _ _, .call _
  | .whileDo _ _, .ifThen _ _ | .whileDo _ _, .ifElse _ _ _ | .whileDo _ _, .call _
  | .call _, .ifThen _ _ | .call _, .ifElse _ _ _ | .call _, .whileDo _ _ => by
    simp [Statement.same]

theorem Block.same_iff :
    ∀ first second : List Statement, Block.same first second = true ↔ first = second
  | [], [] => by simp [Block.same]
  | first :: more, first' :: more' => by
    simp [Block.same, Statement.same_iff first first', Block.same_iff more more']
  | [], _ :: _ | _ :: _, [] => by simp [Block.same]

end

instance : DecidableEq Statement := fun first second =>
  decidable_of_iff _ (Statement.same_iff first second)

/-! ### Depth -/

mutual

/-- How many IFs and WHILEs stand inside one another, this statement included. -/
def Statement.depth : Statement → Nat
  | .ifThen _ body => Block.depth body + 1
  | .ifElse _ thenBody elseBody => max (Block.depth thenBody) (Block.depth elseBody) + 1
  | .whileDo _ body => Block.depth body + 1
  | .call _ => 0

/-- The greatest depth of a statement of a block. -/
def Block.depth : List Statement → Nat
  | [] => 0
  | first :: more => max first.depth (Block.depth more)

end

/-- A block is as deep as its deepest statement. -/
theorem Block.depth_le_iff {body : Block} {limit : Nat} :
    Block.depth body ≤ limit ↔ ∀ s ∈ body, s.depth ≤ limit := by
  induction body with
  | nil => simp [Block.depth]
  | cons first more ih => rw [Block.depth, Nat.max_le, ih, List.forall_mem_cons]

/-! ### Spelling -/

mutual

/-- The lexemes that spell a statement. -/
def Statement.lexemes : Statement → List String
  | .ifThen c body => ["IF", c.text, "THEN"] ++ Block.lexemes body ++ ["END", "IF"]
  | .ifElse c thenBody elseBody =>
    ["IF", c.text, "THEN"] ++ Block.lexemes thenBody ++ "ELSE" :: Block.lexemes elseBody ++
      ["END", "IF"]
  | .whileDo c body => ["WHILE", c.text, "DO"] ++ Block.lexemes body ++ ["END", "WHILE"]
  | .call name => [name.text]

/-- The lexemes that spell a block: those of its statements, one after another. -/
def Block.lexemes : List Statement → List String
  | [] => []
  | first :: more => first.lexemes ++ Block.lexemes more

end

/-- A block is spelled by its statements, one after another. -/
theorem Block.lexemes_eq_flatMap (body : Block) :
    Block.lexemes body = body.flatMap Statement.lexemes := by
  induction body with
  | nil => rw [Block.lexemes, List.flatMap_nil]
  | cons first more ih => rw [Block.lexemes, ih, List.flatMap_cons]

/-- Two blocks, one behind the other, are spelled one behind the other. -/
theorem Block.lexemes_append (first second : Block) :
    Block.lexemes (first ++ second) = Block.lexemes first ++ Block.lexemes second := by
  induction first with
  | nil => simp [Block.lexemes]
  | cons head more ih => simp [Block.lexemes, ih]

mutual

/-- A statement is spelled by words. -/
theorem Statement.areWords_lexemes : ∀ s : Statement, Word.AreWords s.lexemes
  | .ifThen c body => by
    simp (disch := decide) [Statement.lexemes, Word.isWord_of_keyword, Block.areWords_lexemes body]
  | .ifElse c thenBody elseBody => by
    simp (disch := decide) [Statement.lexemes, Word.isWord_of_keyword,
      Block.areWords_lexemes thenBody, Block.areWords_lexemes elseBody]
  | .whileDo c body => by
    simp (disch := decide) [Statement.lexemes, Word.isWord_of_keyword, Block.areWords_lexemes body]
  | .call name => by simp [Statement.lexemes]

/-- A block is spelled by words. -/
theorem Block.areWords_lexemes : ∀ body : List Statement, Word.AreWords (Block.lexemes body)
  | [] => by simp [Block.lexemes]
  | first :: more => by
    simp [Block.lexemes, Statement.areWords_lexemes first, Block.areWords_lexemes more]

end

end BlockLanguage
