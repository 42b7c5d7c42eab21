/-
**Building and taking apart, node by node.**

The operations on fragments and programs once more, on trees and outlines whose nodes may carry any
label over any children. Nothing but the checks that an operation makes keeps such trees in shape.
On the trees of fragments and the outlines of programs the operations do what those on fragments
and programs do, and fail the same check.

* `insert_tree`, `remove_tree`, `assemble_ifThen`, …: the operations on trees.
* `Outline.define_outline`, `Outline.swapBody_outline`: the operations on outlines.
-/

import BlockLanguage.Program
import BlockLanguage.Proofs.Shape

namespace BlockLanguage

namespace Tree

/-- The block without statements. -/
def empty : Tree := node .block []

/-- The check that a tree is of a kind. -/
def require (tree : Tree) (expected : Kind) : Except Refusal Unit :=
  if tree.kind = expected then .ok () else .error (.wrongKind expected tree.kind)

/-- The block with a statement inserted at a position. -/
def insert (self : Tree) (position : Nat) (child : Tree) : Except Refusal Tree := do
  self.require .block
  if child.kind = .block then throw .blockInBlock
  else if position ≤ self.children.length then
    return node self.label (self.children.take position ++ child :: self.children.drop position)
  else throw (.noPlace position self.children.length)

/-- The statement at a position, and the block without it. -/
def remove (self : Tree) (position : Nat) : Except Refusal (Tree × Tree) := do
  self.require .block
  match self.children[position]? with
  | some removed => return (removed, node self.label (self.children.eraseIdx position))
  | none => throw (.noStatement position self.children.length)

/-- The node with a label over bodies. -/
def assemble (label : Label) (bodies : List Tree) : Except Refusal Tree := do
  forM bodies fun body => body.require .block
  return node label bodies

/-- The call of a name. -/
def call (name : String) : Except Refusal Tree :=
  if Word.isIdentifier name then .ok (node (.call name) []) else .error (.calledName name)

/-- The condition of a node of a kind, if its label has one, and what stands below the node. -/
def takeParts (tree : Tree) (expected : Kind) : Except Refusal (Option Condition × List Tree) := do
  tree.require expected
  return (tree.label.condition?, tree.children)

/-- The name at a call, if its label has one. -/
def takeName (tree : Tree) : Except Refusal (Option String) := do
  tree.require .call
  return tree.label.instruction?

/-! ### On the trees of fragments -/

theorem require_of_ne {tree : Tree} {expected : Kind} (other : tree.kind ≠ expected) :
    tree.require expected = .error (.wrongKind expected tree.kind) := if_neg other

theorem require_block_statement (s : Statement) :
    (Fragment.statement s).tree.require .block = .error (.wrongKind .block s.tree.kind) :=
  require_of_ne s.kind_tree_ne_block

theorem children_block (statements : Block) :
    (Fragment.block statements).tree.children = statements.map Statement.tree :=
  Block.trees_eq_map statements

theorem node_block (statements : Block) :
    node .block (statements.map Statement.tree) = (Fragment.block statements).tree := by
  rw [← children_block]
  rfl

theorem insert_tree (self : Fragment) (position : Nat) (child : Fragment) :
    self.tree.insert position child.tree = (self.insert position child).map Fragment.tree := by
  unfold insert Fragment.insert
  cases self with
  | statement s =>
    rw [require_block_statement]
    rfl
  | block statements =>
    cases child with
    | block inner => rfl
    | statement s =>
      have noBlock : (Fragment.statement s).tree.kind ≠ .block := s.kind_tree_ne_block
      rw [if_neg noBlock, children_block, List.length_map]
      by_cases inside : position ≤ statements.length
      · rw [if_pos inside, ← List.map_take, ← List.map_drop]
        show Except.ok (node .block _) = Except.map _ (if _ then _ else _)
        rw [if_pos inside]
        refine congrArg Except.ok ?_
        rw [← node_block, List.map_append, List.map_cons]
        rfl
      · rw [if_neg inside]
        show Except.error _ = Except.map _ (if _ then _ else _)
        rw [if_neg inside]
        rfl

theorem remove_tree (self : Fragment) (position : Nat) :
    self.tree.remove position =
      (self.remove position).map fun pair => (pair.1.tree, pair.2.tree) := by
  unfold remove Fragment.remove
  cases self with
  | statement s =>
    rw [require_block_statement]
    rfl
  | block statements =>
    rw [children_block, List.getElem?_map]
    simp only [Fragment.asBlock, bind, Except.bind]
    cases statements[position]? with
    | none =>
      rw [List.length_map]
      rfl
    | some removed =>
      refine congrArg (fun rest => Except.ok (removed.tree, rest)) ?_
      show node .block _ = (Fragment.block (statements.eraseIdx position)).tree
      rw [← node_block]
      simp [List.eraseIdx_eq_take_drop_succ]

/-- IF and WHILE are assembled alike. -/
theorem assemble_body {label : Label} {make : Block → Statement}
    (made : ∀ statements, (make statements).tree = node label [Block.tree statements])
    (body : Fragment) :
    assemble label [body.tree] = body.asBlock.map fun statements => (make statements).tree := by
  cases body with
  | block statements => exact congrArg Except.ok (made statements).symm
  | statement s =>
    unfold assemble
    rw [List.forM_cons, require_block_statement]
    rfl

theorem assemble_ifThen (condition : Condition) (body : Fragment) :
    assemble (.ifThen condition) [body.tree] =
      (Fragment.ifThen condition body).map Fragment.tree := by
  have made : ∀ statements, (Statement.ifThen condition statements).tree =
      node (.ifThen condition) [Block.tree statements] := fun _ => rfl
  rw [assemble_body made]
  cases body <;> rfl

theorem assemble_whileDo (condition : Condition) (body : Fragment) :
    assemble (.whileDo condition) [body.tree] =
      (Fragment.whileDo condition body).map Fragment.tree := by
  have made : ∀ statements, (Statement.whileDo condition statements).tree =
      node (.whileDo condition) [Block.tree statements] := fun _ => rfl
  rw [assemble_body made]
  cases body <;> rfl

theorem assemble_ifElse (condition : Condition) (thenBody elseBody : Fragment) :
    assemble (.ifElse condition) [thenBody.tree, elseBody.tree] =
      (Fragment.ifElse condition thenBody elseBody).map Fragment.tree := by
  unfold assemble
  cases thenBody with
  | statement s =>
    rw [List.forM_cons, require_block_statement]
    rfl
  | block statements =>
    cases elseBody with
    | block statements' => rfl
    | statement s =>
      rw [List.forM_cons, List.forM_cons, require_block_statement]
      rfl

theorem call_tree (name : String) : call name = (Fragment.call name).map Fragment.tree := by
  unfold call Fragment.call Identifier.ofText?
  split <;> rfl

theorem takeParts_ifThen (self : Fragment) :
    self.tree.takeParts .ifThen =
      self.takeIfThen.map fun parts => (some parts.1, [parts.2.tree]) := by
  cases self with
  | block statements => rfl
  | statement s => cases s <;> rfl

theorem takeParts_ifElse (self : Fragment) :
    self.tree.takeParts .ifElse =
      self.takeIfElse.map fun parts => (some parts.1, [parts.2.1.tree, parts.2.2.tree]) := by
  cases self with
  | block statements => rfl
  | statement s => cases s <;> rfl

theorem takeParts_whileDo (self : Fragment) :
    self.tree.takeParts .whileDo =
      self.takeWhileDo.map fun parts => (some parts.1, [parts.2.tree]) := by
  cases self with
  | block statements => rfl
  | statement s => cases s <;> rfl

theorem takeName_tree (self : Fragment) :
    self.tree.takeName = self.takeCall.map fun name => some name.text := by
  cases self with
  | block statements => rfl
  | statement s => cases s <;> rfl

end Tree

/-! ### Programs -/

/-- What a program consists of, with any trees in the place of blocks. -/
structure Outline where
  name : String
  context : String → Option Tree
  body : Tree

namespace Outline

/-- The outline of a name that defines nothing and does nothing. -/
def new (name : String) : Except Refusal Outline :=
  if Word.isIdentifier name then .ok ⟨name, fun _ => none, .empty⟩ else .error (.programName name)

/-- The outline with one more definition. -/
def define (outline : Outline) (name : String) (body : Tree) : Except Refusal Outline :=
  if Word.isIdentifier name = false then .error (.definedName name)
  else if body.kind ≠ .block then .error (.definedBody name)
  else if Word.isPrimitive name then .error (.reserved name)
  else if (outline.context name).isSome then .error (.duplicate name)
  else .ok { outline with
    context := fun asked => if name = asked then some body else outline.context asked }

/-- The outline without the definition of a name. -/
def undefine (outline : Outline) (name : String) : Outline :=
  { outline with context := fun asked => if asked = name then none else outline.context asked }

/-- The outline with another body, and the body that it had. -/
def swapBody (outline : Outline) (body : Tree) : Except Refusal (Outline × Tree) :=
  if body.kind = .block then .ok ({ outline with body := body }, outline.body)
  else .error .programBody

end Outline

/-- A program, seen as an outline. -/
def Program.outline (program : Program) : Outline :=
  ⟨program.name.text, fun asked => (program.instruction? asked).map Block.tree,
    Block.tree program.body⟩

namespace Outline

variable (program : Program)

theorem new_outline (name : String) : new name = (Program.new name).map Program.outline := by
  unfold new Program.new Identifier.ofText?
  split <;> rfl

/-- A definition more in a program is a tree more in its outline. -/
theorem outline_put {name : Identifier} (free : Word.isPrimitive name.text = false)
    (body : Block) :
    { program with context := program.context.put name body free }.outline =
      { program.outline with
        context := fun asked => if name.text = asked then some (Block.tree body)
          else program.outline.context asked } := by
  unfold Program.outline
  congr 1
  funext asked
  show ((program.context.put name body free).find? asked).map Block.tree = _
  rw [Context.find?_put, apply_ite (Option.map Block.tree)]
  rfl

theorem define_outline (name : String) (body : Fragment) :
    program.outline.define name body.tree = (program.define name body).map Program.outline := by
  unfold define Program.define
  cases named : Identifier.ofText? name with
  | none => exact if_pos (Identifier.ofText?_eq_none_iff.mp named)
  | some key =>
    obtain rfl := Identifier.ofText?_eq_some_iff.mp named
    rw [if_neg (by simp [key.valid])]
    cases body with
    | statement s => exact if_pos s.kind_tree_ne_block
    | block statements =>
      rw [if_neg fun no => no rfl]
      have taken_iff : (program.outline.context key.text).isSome =
          (program.instruction? key.text).isSome := Option.isSome_map
      by_cases free : Word.isPrimitive key.text = false
      · rw [if_neg (by simp [free]), taken_iff]
        show _ = Except.map _ (dite _ _ _)
        rw [dif_pos free]
        by_cases taken : (program.instruction? key.text).isSome = true
        · rw [if_pos taken, if_pos taken]
          rfl
        · rw [if_neg taken, if_neg taken]
          exact congrArg Except.ok (outline_put program free statements).symm
      · rw [if_pos (by simpa using free)]
        show _ = Except.map _ (dite _ _ _)
        rw [dif_neg free]
        rfl

theorem undefine_outline (name : String) :
    program.outline.undefine name = (program.undefine name).outline := by
  unfold undefine Program.outline
  congr 1
  funext asked
  show _ = ((program.context.remove name).find? asked).map Block.tree
  rw [Context.find?_remove]
  split <;> rfl

theorem swapBody_outline (body : Fragment) :
    program.outline.swapBody body.tree =
      (program.swapBody body).map fun pair => (pair.1.outline, pair.2.tree) := by
  cases body with
  | block statements => rfl
  | statement s => exact if_neg s.kind_tree_ne_block

end Outline

/-! ### Outlines in shape -/

namespace Outline

/-- A name may be defined, and what it stands for is a block in shape. -/
structure ShapedEntry (name : String) (body : Tree) : Prop where
  identifier : Word.isIdentifier name = true
  free : Word.isPrimitive name = false
  block : body.kind = .block
  shaped : body.Shaped

/-- The name is an identifier, the body is a block in shape, and finitely many names are defined,
each of them properly. -/
structure Shaped (outline : Outline) : Prop where
  name : Word.isIdentifier outline.name = true
  block : outline.body.kind = .block
  body : outline.body.Shaped
  entries : ∀ name body, outline.context name = some body → ShapedEntry name body
  finite : ∃ names : List String, ∀ name body, outline.context name = some body → name ∈ names

end Outline

/-- The outline of a program is in shape. -/
theorem Program.shaped_outline (program : Program) : program.outline.Shaped where
  name := program.name.valid
  block := rfl
  body := Block.shaped_tree program.body
  entries := by
    intro name tree defined
    obtain ⟨body, found, rfl⟩ := Option.map_eq_some_iff.mp defined
    obtain ⟨key, rfl, member⟩ := Context.mem_of_lookup found
    exact ⟨key.valid, program.context.definable _ member, rfl, Block.shaped_tree body⟩
  finite := by
    refine ⟨program.context.names, fun name tree defined => ?_⟩
    obtain ⟨body, found, rfl⟩ := Option.map_eq_some_iff.mp defined
    obtain ⟨key, rfl, member⟩ := Context.mem_of_lookup found
    exact List.mem_map.mpr ⟨(key, body), member, rfl⟩

/-- A block in shape is the tree of a block. -/
theorem Tree.exists_body {tree : Tree} (block : tree.kind = .block) (shaped : tree.Shaped) :
    ∃ body : Block, Block.tree body = tree :=
  Fragment.exists_block (tree.exists_fragment shaped) block

/-- Proper meanings of finitely many names are those of a context. -/
theorem Context.exists_map_find?_eq (names : List String) {meaning : String → Option Tree}
    (entries : ∀ name body, meaning name = some body → Outline.ShapedEntry name body)
    (finite : ∀ name body, meaning name = some body → name ∈ names) :
    ∃ context : Context, ∀ asked, (context.find? asked).map Block.tree = meaning asked := by
  induction names generalizing meaning with
  | nil =>
    refine ⟨.empty, fun asked => ?_⟩
    cases meant : meaning asked with
    | none => rfl
    | some body => exact absurd (finite asked body meant) List.not_mem_nil
  | cons name more ih =>
    -- a context for the other names, into which the first is put if it has a meaning
    obtain ⟨context, others⟩ := @ih (fun asked => if name = asked then none else meaning asked)
      (by
        intro asked body meant
        split at meant
        · cases meant
        · exact entries asked body meant)
      (by
        intro asked body meant
        split at meant
        · cases meant
        · next other =>
          exact (List.mem_cons.mp (finite asked body meant)).resolve_left (Ne.symm other))
    cases meant : meaning name with
    | none =>
      refine ⟨context, fun asked => ?_⟩
      rw [others asked]
      split
      · next here => rw [← here, meant]
      · rfl
    | some tree =>
      have entry := entries name tree meant
      obtain ⟨body, rfl⟩ := Tree.exists_body entry.block entry.shaped
      refine ⟨context.put ⟨name, entry.identifier⟩ body entry.free, fun asked => ?_⟩
      rw [find?_put, apply_ite (Option.map Block.tree), others asked]
      show (if name = asked then _ else _) = _
      by_cases here : name = asked
      · rw [if_pos here, ← here, meant]
        rfl
      · rw [if_neg here, if_neg here]

/-- **An outline in shape is that of a program.** -/
theorem Outline.Shaped.exists_program {outline : Outline} (shaped : outline.Shaped) :
    ∃ program : Program, program.outline = outline := by
  obtain ⟨name, meaning, body⟩ := outline
  obtain ⟨names, finite⟩ := shaped.finite
  obtain ⟨context, same⟩ := Context.exists_map_find?_eq names shaped.entries finite
  obtain ⟨statements, rfl⟩ := Tree.exists_body shaped.block shaped.body
  refine ⟨⟨⟨name, shaped.name⟩, context, statements⟩, ?_⟩
  exact congrArg (fun meaning => Outline.mk name meaning (Block.tree statements)) (funext same)

end BlockLanguage
