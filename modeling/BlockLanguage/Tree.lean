/-
**Labelled trees.**

The uniform view of statements and blocks: every node has a label and children, and a block is a
node like any other. The view is what a dump shows and what an observer walks through; not every
tree is the view of a statement.
-/

import BlockLanguage.Statement

namespace BlockLanguage

/-- The kinds of nodes. -/
inductive Kind
  | block
  | ifThen
  | ifElse
  | whileDo
  | call
  deriving DecidableEq

/-- The name of a kind. -/
def Kind.text : Kind → String
  | block => "BLOCK"
  | ifThen => "IF"
  | ifElse => "IF_ELSE"
  | whileDo => "WHILE"
  | call => "CALL"

/-- What stands at a node besides its children. -/
inductive Label
  | block
  | ifThen (condition : Condition)
  | ifElse (condition : Condition)
  | whileDo (condition : Condition)
  | call (instruction : String)
  deriving DecidableEq

namespace Label

/-- The kind of the nodes with a label. -/
def kind : Label → Kind
  | block => .block
  | ifThen _ => .ifThen
  | ifElse _ => .ifElse
  | whileDo _ => .whileDo
  | call _ => .call

/-- The condition of an IF or a WHILE. -/
def condition? : Label → Option Condition
  | ifThen condition | ifElse condition | whileDo condition => some condition
  | block | call _ => none

/-- The name that a call calls. -/
def instruction? : Label → Option String
  | call instruction => some instruction
  | _ => none

end Label

/-- A tree of labelled nodes. -/
inductive Tree
  | node (label : Label) (children : List Tree)

namespace Tree

/-- The label of the root. -/
def label : Tree → Label
  | node label _ => label

/-- The trees below the root. -/
def children : Tree → List Tree
  | node _ children => children

/-- The kind of the root. -/
def kind (tree : Tree) : Kind := tree.label.kind

end Tree

mutual

/-- A statement as a tree. -/
def Statement.tree : Statement → Tree
  | .ifThen c body => .node (.ifThen c) [.node .block (Block.trees body)]
  | .ifElse c thenBody elseBody =>
    .node (.ifElse c) [.node .block (Block.trees thenBody), .node .block (Block.trees elseBody)]
  | .whileDo c body => .node (.whileDo c) [.node .block (Block.trees body)]
  | .call name => .node (.call name.text) []

/-- The statements of a block as trees. -/
def Block.trees : List Statement → List Tree
  | [] => []
  | first :: more => first.tree :: Block.trees more

end

/-- A block as a tree. -/
def Block.tree (block : Block) : Tree := .node .block (Block.trees block)

theorem Block.trees_eq_map (block : Block) : Block.trees block = block.map Statement.tree := by
  induction block with
  | nil => rw [Block.trees, List.map_nil]
  | cons first more ih => rw [Block.trees, ih, List.map_cons]

end BlockLanguage
