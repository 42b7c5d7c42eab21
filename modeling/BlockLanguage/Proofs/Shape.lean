/-
**The table of kinds.**

A tree may have any label over any children. The table says which nodes a program is made of: a
block has no block among its children, an IF and a WHILE have one block as their child, an IF with
ELSE has two, and a call has no child and calls an identifier. A tree is in shape if all its nodes
fit the table.

* `shaped_iff`: a tree is in shape if its root fits and what is below it is in shape.
* `Fragment.shaped_tree`, `Tree.exists_fragment`: the trees in shape are those of statements and
  blocks.
-/

import BlockLanguage.Fragment

namespace BlockLanguage

namespace Tree

/-- The kinds of the children of the root, in order. -/
def childKinds (tree : Tree) : List Kind := tree.children.map kind

/-- The root of a tree fits the table. -/
def Fits (tree : Tree) : Prop :=
  match tree.label with
  | .block => .block ∉ tree.childKinds
  | .ifThen _ | .whileDo _ => tree.childKinds = [.block]
  | .ifElse _ => tree.childKinds = [.block, .block]
  | .call name => tree.childKinds = [] ∧ Word.isIdentifier name = true

instance : DecidablePred Fits
  | node .block children => inferInstanceAs (Decidable (.block ∉ children.map kind))
  | node (.ifThen _) children => inferInstanceAs (Decidable (children.map kind = [.block]))
  | node (.ifElse _) children => inferInstanceAs (Decidable (children.map kind = [.block, .block]))
  | node (.whileDo _) children => inferInstanceAs (Decidable (children.map kind = [.block]))
  | node (.call name) children =>
    inferInstanceAs (Decidable (children.map kind = [] ∧ Word.isIdentifier name = true))

theorem fits_block_iff {children : List Tree} :
    (node .block children).Fits ↔ ∀ child ∈ children, child.kind ≠ .block := by
  simp [Fits, label, childKinds, Tree.children]

mutual

/-- The nodes of a tree, each as the tree below it. -/
def nodes : Tree → List Tree
  | node label children => node label children :: nodesOf children

/-- The nodes of trees, one after another. -/
def nodesOf : List Tree → List Tree
  | [] => []
  | first :: more => first.nodes ++ nodesOf more

end

theorem nodesOf_eq_flatMap (trees : List Tree) : nodesOf trees = trees.flatMap nodes := by
  induction trees with
  | nil => rw [nodesOf, List.flatMap_nil]
  | cons first more ih => rw [nodesOf, ih, List.flatMap_cons]

/-- Every node of a tree fits the table. -/
def Shaped (tree : Tree) : Prop := ∀ node ∈ tree.nodes, node.Fits

/-- A tree is in shape if its root fits the table and the trees below it are in shape. -/
theorem shaped_iff {tree : Tree} :
    tree.Shaped ↔ tree.Fits ∧ ∀ child ∈ tree.children, child.Shaped := by
  obtain ⟨label, children⟩ := tree
  simp only [Shaped, nodes, nodesOf_eq_flatMap, List.forall_mem_cons, List.mem_flatMap,
    Tree.children]
  refine and_congr_right fun _ => ⟨?_, ?_⟩
  · intro each child member node below
    exact each node ⟨child, member, below⟩
  · rintro each node ⟨child, member, below⟩
    exact each child member node below

instance : DecidablePred Shaped := fun tree =>
  inferInstanceAs (Decidable (∀ node ∈ tree.nodes, node.Fits))

example : ¬ (node .block [node .block []]).Shaped := by decide

end Tree

/-! ### Statements and blocks are in shape -/

theorem Statement.kind_tree_ne_block (s : Statement) : s.tree.kind ≠ .block := by
  cases s <;> simp [Statement.tree, Tree.kind, Tree.label, Label.kind]

mutual

/-- The tree of a statement is in shape. -/
theorem Statement.shaped_tree : ∀ s : Statement, s.tree.Shaped
  | .ifThen c body => by
    rw [Statement.tree, Tree.shaped_iff]
    exact ⟨rfl, by simpa [Tree.children] using Block.shaped_tree body⟩
  | .ifElse c thenBody elseBody => by
    rw [Statement.tree, Tree.shaped_iff]
    refine ⟨rfl, ?_⟩
    simpa [Tree.children] using ⟨Block.shaped_tree thenBody, Block.shaped_tree elseBody⟩
  | .whileDo c body => by
    rw [Statement.tree, Tree.shaped_iff]
    exact ⟨rfl, by simpa [Tree.children] using Block.shaped_tree body⟩
  | .call name => by
    rw [Statement.tree, Tree.shaped_iff]
    exact ⟨⟨rfl, name.valid⟩, List.forall_mem_nil _⟩

/-- The tree of a block is in shape. -/
theorem Block.shaped_tree : ∀ body : List Statement, (Tree.node .block (Block.trees body)).Shaped
  | [] => by
    rw [Block.trees, Tree.shaped_iff]
    exact ⟨Tree.fits_block_iff.mpr (List.forall_mem_nil _), List.forall_mem_nil _⟩
  | first :: more => by
    have head := Statement.shaped_tree first
    obtain ⟨fits, below⟩ := Tree.shaped_iff.mp (Block.shaped_tree more)
    rw [Tree.fits_block_iff] at fits
    rw [Block.trees, Tree.shaped_iff, Tree.fits_block_iff]
    exact ⟨List.forall_mem_cons.mpr ⟨first.kind_tree_ne_block, fits⟩,
      List.forall_mem_cons.mpr ⟨head, below⟩⟩

end

/-- The tree of a fragment is in shape. -/
theorem Fragment.shaped_tree : ∀ fragment : Fragment, fragment.tree.Shaped
  | .block statements => Block.shaped_tree statements
  | .statement s => s.shaped_tree

/-! ### What is in shape is a statement or a block -/

/-- A block as a tree is the tree of a block. -/
theorem Fragment.exists_block {tree : Tree} (known : ∃ fragment : Fragment, fragment.tree = tree)
    (isBlock : tree.kind = .block) : ∃ body : Block, Block.tree body = tree := by
  obtain ⟨fragment, rfl⟩ := known
  cases fragment with
  | block statements => exact ⟨statements, rfl⟩
  | statement s => exact absurd isBlock s.kind_tree_ne_block

/-- Trees of fragments among which there is no block are the statements of a block. -/
theorem Fragment.exists_trees {trees : List Tree}
    (known : ∀ tree ∈ trees, ∃ fragment : Fragment, fragment.tree = tree)
    (noBlock : ∀ tree ∈ trees, tree.kind ≠ .block) : ∃ body : Block, Block.trees body = trees := by
  induction trees with
  | nil => exact ⟨[], rfl⟩
  | cons first more ih =>
    rw [List.forall_mem_cons] at known noBlock
    obtain ⟨body, rfl⟩ := ih known.2 noBlock.2
    obtain ⟨fragment, rfl⟩ := known.1
    cases fragment with
    | block statements => exact absurd rfl noBlock.1
    | statement s => exact ⟨s :: body, rfl⟩

/-- **A tree in shape is that of a statement or a block.** -/
theorem Tree.exists_fragment :
    ∀ tree : Tree, tree.Shaped → ∃ fragment : Fragment, fragment.tree = tree
  | node label children, shaped => by
    obtain ⟨fits, below⟩ := shaped_iff.mp shaped
    have known : ∀ child ∈ children, ∃ fragment : Fragment, fragment.tree = child :=
      fun child member => exists_fragment child (below child member)
    cases label with
    | block =>
      obtain ⟨statements, rfl⟩ := Fragment.exists_trees known (fits_block_iff.mp fits)
      exact ⟨.block statements, rfl⟩
    | ifThen c =>
      obtain ⟨_, rfl, isBlock⟩ := List.map_eq_singleton_iff.mp fits
      obtain ⟨body, rfl⟩ := Fragment.exists_block (known _ List.mem_cons_self) isBlock
      exact ⟨.statement (.ifThen c body), rfl⟩
    | ifElse c =>
      obtain ⟨_, _, rfl, thenBlock, rest⟩ := List.map_eq_cons_iff.mp fits
      obtain ⟨_, rfl, elseBlock⟩ := List.map_eq_singleton_iff.mp rest
      obtain ⟨thenKnown, elseKnown⟩ := List.forall_mem_cons.mp known
      obtain ⟨thenBody, rfl⟩ := Fragment.exists_block thenKnown thenBlock
      obtain ⟨elseBody, rfl⟩ := Fragment.exists_block (elseKnown _ List.mem_cons_self) elseBlock
      exact ⟨.statement (.ifElse c thenBody elseBody), rfl⟩
    | whileDo c =>
      obtain ⟨_, rfl, isBlock⟩ := List.map_eq_singleton_iff.mp fits
      obtain ⟨body, rfl⟩ := Fragment.exists_block (known _ List.mem_cons_self) isBlock
      exact ⟨.statement (.whileDo c body), rfl⟩
    | call name =>
      obtain ⟨noChild, valid⟩ := fits
      obtain rfl := List.map_eq_nil_iff.mp noChild
      exact ⟨.statement (.call ⟨name, valid⟩), rfl⟩

end BlockLanguage
