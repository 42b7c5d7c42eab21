/-
**Nothing is lost and nothing is doubled.**

A tree stands in one slot or below one node, and an operation that takes place moves it as a whole.
Counted without those of blocks, the labels in the slots that an operation names are the same before
and behind it, but for the label that it makes or answers, and for what stood in a slot that it
overwrites. Whatever was handed in is left as the empty block, and nothing else is touched.

* `Tree.tally`, `Program.tally`: the labels in a tree and in a program.
* `Tree.Gains`, `Program.Gains`: one statement or one definition more, and the others as they were.
* `Store.Done`, `Store.done_of_perform`: what an operation that takes place does.
* `Store.Carries`, `Store.Balanced`: the same by what stands in its slots, and by their labels.
* `Store.perform_conserves`: all of it, and the labels in any slots taken together.
-/

import BlockLanguage.Proofs.Moves
import Mathlib.Algebra.BigOperators.Group.Finset.Basic
import Mathlib.Algebra.Order.Group.Multiset
import Mathlib.Tactic.Abel

namespace BlockLanguage

/-! ### What a tree holds -/

/-- The label as a node holds it: blocks do not count. -/
def Label.tally (label : Label) : Multiset Label := if label = .block then 0 else {label}

/-- The labels in a tree other than those of blocks, each as often as it occurs. -/
def Tree.tally (tree : Tree) : Multiset Label :=
  Multiset.filter (· ≠ .block) (tree.nodes.map Tree.label)

namespace Tree

/-- A node holds its own label and what is below it. -/
theorem tally_node (label : Label) (children : List Tree) :
    (node label children).tally = label.tally + (children.map tally).sum := by
  have below : Multiset.filter (· ≠ Label.block) ((nodesOf children).map Tree.label) =
      (children.map tally).sum := by
    induction children with
    | nil => rfl
    | cons first more ih =>
      rw [nodesOf, List.map_append, ← Multiset.coe_add, Multiset.filter_add, ih, List.map_cons,
        List.sum_cons]
      rfl
  rw [tally, nodes, List.map_cons, ← Multiset.cons_coe, ← Multiset.singleton_add,
    Multiset.filter_add, below, Label.tally]
  congr 1
  by_cases isBlock : label = .block
  · simp [isBlock, Tree.label]
  · simp [isBlock, Tree.label, Multiset.filter_singleton]

@[simp] theorem tally_block (children : List Tree) :
    (node .block children).tally = (children.map tally).sum := by
  rw [tally_node, Label.tally, if_pos rfl, zero_add]

theorem tally_of_ne_block {label : Label} (other : label ≠ .block) (children : List Tree) :
    (node label children).tally = {label} + (children.map tally).sum := by
  rw [tally_node, Label.tally, if_neg other]

/-- A block has one more statement, at a position, than another one. -/
def Gains (position : Nat) (child less more : Tree) : Prop :=
  ∃ front back, front.length = position ∧
    less = node .block (front ++ back) ∧ more = node .block (front ++ child :: back)

theorem Gains.tally {position : Nat} {child less more : Tree}
    (gains : Gains position child less more) : more.tally = less.tally + child.tally := by
  obtain ⟨front, back, _, rfl, rfl⟩ := gains
  simp only [tally_block, List.map_append, List.map_cons, List.sum_append, List.sum_cons]
  abel

end Tree

namespace Program

/-- The labels in a program: those in its body and in the bodies that it defines. -/
def tally (program : Program) : Multiset Label :=
  (Block.tree program.body).tally +
    (program.context.entries.map fun entry => (Block.tree entry.2).tally).sum

/-- A program has one more definition, in its place among the others, than another one. -/
structure Gains (key : Identifier) (statements : Block) (less more : Program) : Prop where
  name : more.name = less.name
  body : more.body = less.body
  entries : ∃ front back, less.context.entries = front ++ back ∧
    more.context.entries = front ++ (key, statements) :: back

variable {key : Identifier} {statements : Block} {program less more : Program}

theorem Gains.tally (gains : Gains key statements less more) :
    more.tally = less.tally + (Block.tree statements).tally := by
  obtain ⟨_, sameBody, front, back, before, behind⟩ := gains
  simp only [Program.tally, sameBody, before, behind, List.map_append, List.map_cons,
    List.sum_append, List.sum_cons]
  abel

theorem gains_put (absent : program.instruction? key.text = none) (statements : Block)
    (free : Word.isPrimitive key.text = false) :
    Gains key statements program
      { program with context := program.context.put key statements free } :=
  ⟨rfl, rfl, Context.exists_place_eq absent statements⟩

/-- What defines a name has one more definition than what is left without it. -/
theorem gains_of_undefine {name : String} (found : program.instruction? name = some statements) :
    ∃ key : Identifier, key.text = name ∧
      Gains key statements (program.undefine name) program := by
  obtain ⟨key, rfl, free⟩ := Context.exists_key found
  have absent : (program.undefine key.text).instruction? key.text = none :=
    (Context.find?_remove program.context key.text key.text).trans (if_pos rfl)
  have back : (program.undefine key.text).context.put key statements free = program.context :=
    Context.put_remove found free
  have gains := gains_put absent statements free
  rw [back] at gains
  exact ⟨key, rfl, gains⟩

/-- A definition that takes place is of a block, and adds it. -/
theorem gains_of_define {name : String} {body : Fragment}
    (defined : program.define name body = .ok more) :
    ∃ key statements, key.text = name ∧ body = .block statements ∧
      Gains key statements program more := by
  obtain ⟨key, statements, free, rfl, rfl, absent, rfl⟩ := define_eq_ok_iff.mp defined
  exact ⟨key, statements, rfl, rfl, gains_put absent statements free⟩

end Program

/-! ### What building and taking apart make -/

theorem Tree.eq_of_assemble {label : Label} {bodies : List Tree} {made : Tree}
    (assembled : assemble label bodies = .ok made) : made = .node label bodies := by
  unfold assemble at assembled
  cases required : (forM bodies fun body => body.require .block : Except Refusal Unit) with
  | error refusal =>
    rw [required] at assembled
    cases assembled
  | ok =>
    rw [required] at assembled
    cases assembled
    rfl

namespace Fragment

variable {self child body thenBody elseBody made removed rest : Fragment} {condition : Condition}

theorem gains_of_insert {position : Nat} (inserted : self.insert position child = .ok made) :
    Tree.Gains position child.tree self.tree made.tree := by
  cases self with
  | statement s => cases inserted
  | block statements =>
    cases child with
    | block inner => cases inserted
    | statement s =>
      change (if position ≤ statements.length then (Except.ok _ : Except Refusal Fragment)
        else Except.error _) = _ at inserted
      split at inserted
      · next inside =>
        cases inserted
        refine ⟨Block.trees (statements.take position), Block.trees (statements.drop position),
          ?_, ?_, ?_⟩
        · rw [Block.trees_eq_map, List.length_map, List.length_take, Nat.min_eq_left inside]
        · rw [Block.trees_eq_map, Block.trees_eq_map, ← List.map_append, List.take_append_drop,
            Tree.node_block]
        · simp only [tree, Block.tree, Block.trees_eq_map, List.map_append, List.map_cons]
      · cases inserted

theorem gains_of_remove {position : Nat} (taken : self.remove position = .ok (removed, rest)) :
    Tree.Gains position removed.tree rest.tree self.tree := by
  cases self with
  | statement s => cases taken
  | block statements =>
    cases found : statements[position]? with
    | some s =>
      rw [remove_of_some found] at taken
      cases taken
      obtain ⟨inside, rfl⟩ := List.getElem?_eq_some_iff.mp found
      refine ⟨Block.trees (statements.take position), Block.trees (statements.drop (position + 1)),
        ?_, ?_, ?_⟩
      · rw [Block.trees_eq_map, List.length_map, List.length_take,
          Nat.min_eq_left (Nat.le_of_lt inside)]
      · simp only [tree, Block.tree, Block.trees_eq_map, List.eraseIdx_eq_take_drop_succ,
          List.map_append]
      · simp only [tree, Block.tree, Block.trees_eq_map]
        rw [← List.map_cons, ← List.map_append, List.getElem_cons_drop, List.take_append_drop]
    | none =>
      rw [remove_of_none found] at taken
      cases taken

theorem tree_of_ifThen (assembled : ifThen condition body = .ok made) :
    made.tree = .node (.ifThen condition) [body.tree] :=
  Tree.eq_of_assemble (by rw [Tree.assemble_ifThen, assembled]; rfl)

theorem tree_of_whileDo (assembled : whileDo condition body = .ok made) :
    made.tree = .node (.whileDo condition) [body.tree] :=
  Tree.eq_of_assemble (by rw [Tree.assemble_whileDo, assembled]; rfl)

theorem tree_of_ifElse (assembled : ifElse condition thenBody elseBody = .ok made) :
    made.tree = .node (.ifElse condition) [thenBody.tree, elseBody.tree] :=
  Tree.eq_of_assemble (by rw [Tree.assemble_ifElse, assembled]; rfl)

theorem tree_of_call {name : String} (assembled : call name = .ok made) :
    made.tree = .node (.call name) [] := by
  unfold call at assembled
  split at assembled
  · next key named =>
    cases assembled
    rw [← Identifier.ofText?_eq_some_iff.mp named]
    rfl
  · cases assembled

theorem tree_of_takeIfThen (taken : self.takeIfThen = .ok (condition, body)) :
    self.tree = .node (.ifThen condition) [body.tree] := by
  unfold takeIfThen at taken
  split at taken <;> cases taken
  rfl

theorem tree_of_takeWhileDo (taken : self.takeWhileDo = .ok (condition, body)) :
    self.tree = .node (.whileDo condition) [body.tree] := by
  unfold takeWhileDo at taken
  split at taken <;> cases taken
  rfl

theorem tree_of_takeIfElse (taken : self.takeIfElse = .ok (condition, thenBody, elseBody)) :
    self.tree = .node (.ifElse condition) [thenBody.tree, elseBody.tree] := by
  unfold takeIfElse at taken
  split at taken <;> cases taken
  rfl

theorem tree_of_takeCall {name : Identifier} (taken : self.takeCall = .ok name) :
    self.tree = .node (.call name.text) [] := by
  unfold takeCall at taken
  split at taken <;> cases taken
  rfl

end Fragment

namespace Store

/-! ### What an operation does -/

/-- Whether an operation copies what stands in a slot, or reads a text. -/
def Operation.copies : Operation → Bool
  | .clone _ _ | .parse _ _ _ | .parseProgram _ _ | .cloneProgram _ _ => true
  | _ => false

/-- What an operation that takes place answers, and the store behind it. -/
inductive Done (store : Store) : Operation → Answer → Store → Prop
  | new {self : String} : Done store (.new self) .done (store.clear self)
  | add {self child : String} {position : Nat} {made : Fragment}
    (gains : Tree.Gains position (store.fragments child).tree (store.fragments self).tree
      made.tree) :
    Done store (.add self position child) .done ((store.clear child).put self made)
  | remove {self target : String} {position : Nat} {removed rest : Fragment}
    (gains : Tree.Gains position removed.tree rest.tree (store.fragments self).tree) :
    Done store (.remove self position target) .done ((store.put self rest).put target removed)
  | assembleIf {self body : String} {condition : Condition} {made : Fragment}
    (node : made.tree = .node (.ifThen condition) [(store.fragments body).tree]) :
    Done store (.assembleIf self condition body) .done ((store.clear body).put self made)
  | assembleIfElse {self thenBody elseBody : String} {condition : Condition} {made : Fragment}
    (node : made.tree = .node (.ifElse condition)
      [(store.fragments thenBody).tree, (store.fragments elseBody).tree]) :
    Done store (.assembleIfElse self condition thenBody elseBody) .done
      (((store.clear thenBody).clear elseBody).put self made)
  | assembleWhile {self body : String} {condition : Condition} {made : Fragment}
    (node : made.tree = .node (.whileDo condition) [(store.fragments body).tree]) :
    Done store (.assembleWhile self condition body) .done ((store.clear body).put self made)
  | assembleCall {self name : String} {made : Fragment} (node : made.tree = .node (.call name) []) :
    Done store (.assembleCall self name) .done (store.put self made)
  | disassembleIf {self body : String} {condition : Condition} {part : Fragment}
    (node : (store.fragments self).tree = .node (.ifThen condition) [part.tree]) :
    Done store (.disassembleIf self body) (.condition condition) ((store.clear self).put body part)
  | disassembleIfElse {self thenBody elseBody : String} {condition : Condition}
    {thenPart elsePart : Fragment}
    (node : (store.fragments self).tree =
      .node (.ifElse condition) [thenPart.tree, elsePart.tree]) :
    Done store (.disassembleIfElse self thenBody elseBody) (.condition condition)
      (((store.clear self).put thenBody thenPart).put elseBody elsePart)
  | disassembleWhile {self body : String} {condition : Condition} {part : Fragment}
    (node : (store.fragments self).tree = .node (.whileDo condition) [part.tree]) :
    Done store (.disassembleWhile self body) (.condition condition)
      ((store.clear self).put body part)
  | disassembleCall {self : String} {name : Identifier}
    (node : (store.fragments self).tree = .node (.call name.text) []) :
    Done store (.disassembleCall self) (.name name) (store.clear self)
  | transfer {self source : String} :
    Done store (.transfer self source) .done
      ((store.clear source).put self (store.fragments source))
  | newProgram {self : String} {name : Identifier} :
    Done store (.newProgram self name.text) .done (store.putProgram self ⟨name, .empty, []⟩)
  | define {self name body : String} {key : Identifier} {statements : Block}
    {program made : Program} (held : store.programs self = some program) (named : key.text = name)
    (block : store.fragments body = .block statements)
    (gains : Program.Gains key statements program made) :
    Done store (.define self name body) .done ((store.clear body).putProgram self made)
  | undefine {self name target : String} {key : Identifier} {statements : Block}
    {program less : Program} (held : store.programs self = some program) (named : key.text = name)
    (gains : Program.Gains key statements less program) :
    Done store (.undefine self name target) (.truth true)
      ((store.putProgram self less).put target (.block statements))
  | undefined {self name target : String} {program : Program}
    (held : store.programs self = some program) (absent : program.instruction? name = none) :
    Done store (.undefine self name target) (.truth false) store
  | swapBody {self body : String} {statements : Block} {program : Program}
    (held : store.programs self = some program)
    (block : store.fragments body = .block statements) :
    Done store (.swapBody self body) .done
      ((store.putProgram self { program with body := statements }).put body (.block program.body))

section Done

variable {store behind : Store} {operation : Operation} {answer : Answer}

/-- What follows a check that holds. -/
theorem checked_bind_eq_ok_iff {α : Type} {result : Except Refusal α}
    {next : α → Except Failure (Answer × Store)} {done : Answer × Store} :
    (checked result >>= next) = .ok done ↔ ∃ value, result = .ok value ∧ next value = .ok done := by
  cases result with
  | ok value =>
    show next value = _ ↔ _
    simp
  | error refusal =>
    show (Except.error (Failure.refused refusal) : Except Failure (Answer × Store)) = _ ↔ _
    simp

theorem program_bind_eq_ok_iff {slot : String} {next : Program → Except Failure (Answer × Store)}
    {done : Answer × Store} :
    (store.program slot >>= next) = .ok done ↔
      ∃ program, store.programs slot = some program ∧ next program = .ok done := by
  unfold program
  cases store.programs slot with
  | none =>
    show (Except.error Failure.noProgram : Except Failure (Answer × Store)) = _ ↔ _
    simp
  | some program =>
    show next program = _ ↔ _
    simp

/-- An operation that takes place does what is written down for it. -/
theorem done_of_perform (moves : operation.copies = false)
    (performed : store.perform operation = .ok (answer, behind)) :
    Done store operation answer behind := by
  cases operation with
  | new self =>
    cases performed
    exact .new
  | add self position child =>
    obtain ⟨made, inserted, same⟩ := checked_bind_eq_ok_iff.mp performed
    cases same
    exact .add (Fragment.gains_of_insert inserted)
  | remove self position target =>
    obtain ⟨⟨removed, rest⟩, taken, same⟩ := checked_bind_eq_ok_iff.mp performed
    cases same
    exact .remove (Fragment.gains_of_remove taken)
  | assembleIf self condition body =>
    obtain ⟨made, assembled, same⟩ := checked_bind_eq_ok_iff.mp performed
    cases same
    exact .assembleIf (Fragment.tree_of_ifThen assembled)
  | assembleIfElse self condition thenBody elseBody =>
    obtain ⟨made, assembled, same⟩ := checked_bind_eq_ok_iff.mp performed
    cases same
    exact .assembleIfElse (Fragment.tree_of_ifElse assembled)
  | assembleWhile self condition body =>
    obtain ⟨made, assembled, same⟩ := checked_bind_eq_ok_iff.mp performed
    cases same
    exact .assembleWhile (Fragment.tree_of_whileDo assembled)
  | assembleCall self name =>
    obtain ⟨made, assembled, same⟩ := checked_bind_eq_ok_iff.mp performed
    cases same
    exact .assembleCall (Fragment.tree_of_call assembled)
  | disassembleIf self body =>
    obtain ⟨⟨condition, part⟩, taken, same⟩ := checked_bind_eq_ok_iff.mp performed
    cases same
    exact .disassembleIf (Fragment.tree_of_takeIfThen taken)
  | disassembleIfElse self thenBody elseBody =>
    obtain ⟨⟨condition, thenPart, elsePart⟩, taken, same⟩ := checked_bind_eq_ok_iff.mp performed
    cases same
    exact .disassembleIfElse (Fragment.tree_of_takeIfElse taken)
  | disassembleWhile self body =>
    obtain ⟨⟨condition, part⟩, taken, same⟩ := checked_bind_eq_ok_iff.mp performed
    cases same
    exact .disassembleWhile (Fragment.tree_of_takeWhileDo taken)
  | disassembleCall self =>
    obtain ⟨name, taken, same⟩ := checked_bind_eq_ok_iff.mp performed
    cases same
    exact .disassembleCall (Fragment.tree_of_takeCall taken)
  | transfer self source =>
    cases performed
    exact .transfer
  | newProgram self name =>
    obtain ⟨made, named, same⟩ := checked_bind_eq_ok_iff.mp performed
    cases same
    unfold Program.new at named
    split at named
    · next key isName =>
      cases named
      rw [← Identifier.ofText?_eq_some_iff.mp isName]
      exact .newProgram
    · cases named
  | define self name body =>
    obtain ⟨program, held, behindProgram⟩ := program_bind_eq_ok_iff.mp performed
    obtain ⟨made, defined, same⟩ := checked_bind_eq_ok_iff.mp behindProgram
    cases same
    obtain ⟨key, statements, named, block, gains⟩ := Program.gains_of_define defined
    exact .define held named block gains
  | undefine self name target =>
    obtain ⟨program, held, behindProgram⟩ := program_bind_eq_ok_iff.mp performed
    cases found : program.instruction? name with
    | none =>
      simp only [found] at behindProgram
      cases behindProgram
      exact .undefined held found
    | some statements =>
      simp only [found] at behindProgram
      cases behindProgram
      obtain ⟨key, named, gains⟩ := Program.gains_of_undefine found
      exact .undefine held named gains
  | swapBody self body =>
    obtain ⟨program, held, behindProgram⟩ := program_bind_eq_ok_iff.mp performed
    obtain ⟨⟨made, old⟩, swapped, same⟩ := checked_bind_eq_ok_iff.mp behindProgram
    cases same
    cases block : store.fragments body with
    | statement s =>
      rw [block] at swapped
      cases swapped
    | block statements =>
      rw [block] at swapped
      cases swapped
      exact .swapBody held block
  | clone | parse | parseProgram | cloneProgram => cases moves

end Done

/-! ### The slots of an operation, before and behind it -/

/-- The slots with programs that an operation names. -/
def Operation.programSlots : Operation → List String
  | .newProgram self _ | .parseProgram self _ | .define self _ _ | .undefine self _ _
  | .swapBody self _ => [self]
  | .cloneProgram self copy => [self, copy]
  | _ => []

/-- The slots whose statements an operation moves elsewhere or takes apart. -/
def Operation.emptied : Operation → List String
  | .new self | .disassembleIf self _ | .disassembleIfElse self _ _ | .disassembleWhile self _
  | .disassembleCall self => [self]
  | .add _ _ child => [child]
  | .assembleIf _ _ body | .assembleWhile _ _ body | .define _ _ body => [body]
  | .assembleIfElse _ _ thenBody elseBody => [thenBody, elseBody]
  | .transfer _ source => [source]
  | _ => []

/-- The labels in a slot with a fragment. -/
def tally (store : Store) (slot : String) : Multiset Label := (store.fragments slot).tree.tally

/-- The labels in a slot with a program, if there is one. -/
def programTally (store : Store) (slot : String) : Multiset Label :=
  (store.programs slot).elim 0 Program.tally

theorem tally_of_empty {store : Store} {slot : String} (empty : store.fragments slot = .empty) :
    store.tally slot = 0 := by
  rw [tally, empty]
  simp [Fragment.empty, Fragment.tree, Block.tree, Block.trees]

/-- The labels before an operation and behind it. -/
def Balanced (before behind : Store) : Operation → Answer → Prop
  | .new self, .done => behind.tally self = 0
  | .add self _ child, .done => behind.tally self = before.tally self + before.tally child
  | .remove self _ target, .done => behind.tally self + behind.tally target = before.tally self
  | .assembleIf self condition body, .done =>
    behind.tally self = {.ifThen condition} + before.tally body
  | .assembleIfElse self condition thenBody elseBody, .done =>
    behind.tally self =
      {.ifElse condition} + (before.tally thenBody + before.tally elseBody)
  | .assembleWhile self condition body, .done =>
    behind.tally self = {.whileDo condition} + before.tally body
  | .assembleCall self name, .done => behind.tally self = {.call name}
  | .disassembleIf self body, .condition condition =>
    before.tally self = {.ifThen condition} + behind.tally body
  | .disassembleIfElse self thenBody elseBody, .condition condition =>
    before.tally self =
      {.ifElse condition} + (behind.tally thenBody + behind.tally elseBody)
  | .disassembleWhile self body, .condition condition =>
    before.tally self = {.whileDo condition} + behind.tally body
  | .disassembleCall self, .name name => before.tally self = {.call name.text}
  | .transfer self source, .done => behind.tally self = before.tally source
  | .newProgram self _, .done => behind.programTally self = 0
  | .define self _ body, .done =>
    behind.programTally self = before.programTally self + before.tally body
  | .undefine self _ target, .truth true =>
    behind.programTally self + behind.tally target = before.programTally self
  | .undefine _ _ _, .truth false => behind = before
  | .swapBody self body, .done =>
    behind.programTally self + behind.tally body = before.programTally self + before.tally body
  | _, _ => False

namespace Done

variable {store behind : Store} {operation : Operation} {answer : Answer}

theorem balanced (done : Done store operation answer behind) (separate : operation.slots.Nodup) :
    Balanced store behind operation answer := by
  cases done with
  | new => exact tally_of_empty (fragments_clear store _)
  | add gains =>
    rw [Balanced, tally, fragments_put]
    exact gains.tally
  | remove gains =>
    have apart := (List.pairwise_cons.mp separate).1 _ List.mem_cons_self
    rw [Balanced, tally, tally, fragments_put, fragments_put_of_ne _ apart, fragments_put]
    exact gains.tally.symm
  | assembleIf node | assembleIfElse node | assembleWhile node | assembleCall node =>
    simp [Balanced, tally, node, Tree.tally_of_ne_block]
  | disassembleIf node | disassembleWhile node | disassembleCall node =>
    simp [Balanced, tally, node, Tree.tally_of_ne_block]
  | disassembleIfElse node =>
    have apart := (List.pairwise_cons.mp (List.pairwise_cons.mp separate).2).1 _ List.mem_cons_self
    simp [Balanced, tally, node, Tree.tally_of_ne_block, fragments_put_of_ne _ apart]
  | transfer => simp [Balanced, tally]
  | newProgram =>
    simp [Balanced, programTally, Program.tally, Block.tree, Block.trees, Context.empty]
  | define held named block gains =>
    simp [Balanced, programTally, tally, held, block, gains.tally, Fragment.tree]
  | undefine held named gains =>
    simp [Balanced, programTally, tally, held, gains.tally, Fragment.tree]
  | undefined held absent => rfl
  | swapBody held block =>
    simp only [Balanced, programTally, tally, fragments_put, programs_put, programs_putProgram, held,
      block, Option.elim_some, Program.tally, Fragment.tree]
    abel

theorem empties (done : Done store operation answer behind) (separate : operation.slots.Nodup) :
    ∀ slot ∈ operation.emptied, behind.fragments slot = .empty := by
  intro slot member
  cases done with
  | add | assembleIf | assembleWhile | transfer =>
    obtain rfl := List.mem_singleton.mp member
    have apart := (List.pairwise_cons.mp separate).1 _ List.mem_cons_self
    rw [fragments_put_of_ne _ apart.symm, fragments_clear]
  | assembleIfElse =>
    obtain ⟨apart, bodies⟩ := List.pairwise_cons.mp separate
    rw [fragments_put_of_ne _ (apart _ member).symm]
    have different := (List.pairwise_cons.mp bodies).1 _ List.mem_cons_self
    rcases List.mem_cons.mp member with rfl | member
    · rw [fragments_clear_of_ne _ different, fragments_clear]
    · rw [List.mem_singleton.mp member, fragments_clear]
  | _ => simp_all [Operation.emptied, Operation.slots, fragments_put_of_ne]

theorem fragments_other (done : Done store operation answer behind) {slot : String}
    (other : slot ∉ operation.slots) : behind.fragments slot = store.fragments slot := by
  cases done <;> simp_all [Operation.slots, fragments_put_of_ne, fragments_clear_of_ne]

theorem programs_other (done : Done store operation answer behind) {slot : String}
    (other : slot ∉ operation.programSlots) : behind.programs slot = store.programs slot := by
  cases done <;> simp_all [Operation.programSlots, programs_putProgram_of_ne]

end Done

/-! ### All slots together -/

/-- The label that an operation makes. -/
def Operation.made : Operation → Multiset Label
  | .assembleIf _ condition _ => {.ifThen condition}
  | .assembleIfElse _ condition _ _ => {.ifElse condition}
  | .assembleWhile _ condition _ => {.whileDo condition}
  | .assembleCall _ name => {.call name}
  | _ => 0

/-- The label that an operation takes off a node and answers. -/
def Operation.returned : Operation → Answer → Multiset Label
  | .disassembleIf _ _, .condition condition => {.ifThen condition}
  | .disassembleIfElse _ _ _, .condition condition => {.ifElse condition}
  | .disassembleWhile _ _, .condition condition => {.whileDo condition}
  | .disassembleCall _, .name name => {.call name.text}
  | _, _ => 0

/-- The labels that stand in the slots that an operation overwrites. -/
def dropped (store : Store) : Operation → Answer → Multiset Label
  | .new self, _ | .assembleIf self _ _, _ | .assembleIfElse self _ _ _, _
  | .assembleWhile self _ _, _ | .assembleCall self _, _ | .transfer self _, _ => store.tally self
  | .remove _ _ target, _ | .undefine _ _ target, .truth true => store.tally target
  | .disassembleIf _ body, _ | .disassembleWhile _ body, _ => store.tally body
  | .disassembleIfElse _ thenBody elseBody, _ => store.tally thenBody + store.tally elseBody
  | .newProgram self _, _ => store.programTally self
  | _, _ => 0

/-- The labels in slots with fragments and in slots with programs. -/
def held (store : Store) (slots programs : List String) : Multiset Label :=
  (slots.map store.tally).sum + (programs.map store.programTally).sum

theorem Done.held_add {store behind : Store} {operation : Operation} {answer : Answer}
    (done : Done store operation answer behind) (separate : operation.slots.Nodup) :
    behind.held operation.slots operation.programSlots + operation.returned answer +
        store.dropped operation answer =
      store.held operation.slots operation.programSlots + operation.made := by
  have balanced := done.balanced separate
  have empty := fun slot member => tally_of_empty (done.empties separate slot member)
  clear done
  unfold Balanced at balanced
  -- In each case both sides are sums over the same few slots, and the balance makes them equal.
  split at balanced <;>
    simp only [Operation.emptied, List.forall_mem_cons] at empty <;>
    simp only [held, Operation.slots, Operation.programSlots, Operation.returned, dropped,
      Operation.made, List.map_cons, List.map_nil, List.sum_cons, List.sum_nil] <;>
    grind

/-- The labels in any slots with fragments and any slots with programs. -/
def total (store : Store) (slots programs : Finset String) : Multiset Label :=
  ∑ slot ∈ slots, store.tally slot + ∑ slot ∈ programs, store.programTally slot

/-- Sums over slots differ by what the slots differ in that are named. -/
theorem sum_add_sum_map (before behind : String → Multiset Label) {named : List String}
    {slots : Finset String} (separate : named.Nodup) (within : ∀ slot ∈ named, slot ∈ slots)
    (alike : ∀ slot ∉ named, behind slot = before slot) :
    ∑ slot ∈ slots, behind slot + (named.map before).sum =
      ∑ slot ∈ slots, before slot + (named.map behind).sum := by
  have inside : named.toFinset ⊆ slots := fun slot member =>
    within slot (List.mem_toFinset.mp member)
  have others : ∑ slot ∈ slots \ named.toFinset, behind slot =
      ∑ slot ∈ slots \ named.toFinset, before slot := by
    refine Finset.sum_congr rfl fun slot member => alike slot fun isNamed => ?_
    exact (Finset.mem_sdiff.mp member).2 (List.mem_toFinset.mpr isNamed)
  rw [← Finset.sum_sdiff inside, ← Finset.sum_sdiff inside, others,
    List.sum_toFinset behind separate, List.sum_toFinset before separate]
  abel

theorem Operation.nodup_programSlots {operation : Operation} (moves : operation.copies = false) :
    operation.programSlots.Nodup := by
  cases operation with
  | cloneProgram => cases moves
  | _ => simp [Operation.programSlots]

/-- Over all slots there are the labels that were there and the one made, but for the one answered
and those overwritten. -/
theorem Done.total_add {store behind : Store} {operation : Operation} {answer : Answer}
    (done : Done store operation answer behind) (moves : operation.copies = false)
    (separate : operation.slots.Nodup) {slots programs : Finset String}
    (within : ∀ slot ∈ operation.slots, slot ∈ slots)
    (programsWithin : ∀ slot ∈ operation.programSlots, slot ∈ programs) :
    behind.total slots programs + operation.returned answer + store.dropped operation answer =
      store.total slots programs + operation.made := by
  have fragments := sum_add_sum_map store.tally behind.tally separate within fun slot other => by
    rw [tally, tally, done.fragments_other other]
  have others := sum_add_sum_map store.programTally behind.programTally
    (Operation.nodup_programSlots moves) programsWithin fun slot other => by
      rw [programTally, programTally, done.programs_other other]
  have all : behind.total slots programs + store.held operation.slots operation.programSlots =
      store.total slots programs + behind.held operation.slots operation.programSlots := by
    rw [total, total, held, held, add_add_add_comm, fragments, others, add_add_add_comm]
  -- What the named slots held before stands on both sides and cancels.
  refine add_right_cancel (b := store.held operation.slots operation.programSlots) ?_
  calc behind.total slots programs + operation.returned answer + store.dropped operation answer +
        store.held operation.slots operation.programSlots
      = behind.total slots programs + store.held operation.slots operation.programSlots +
          (operation.returned answer + store.dropped operation answer) := by abel
    _ = store.total slots programs + (behind.held operation.slots operation.programSlots +
          operation.returned answer + store.dropped operation answer) := by rw [all]; abel
    _ = store.total slots programs + operation.made +
          store.held operation.slots operation.programSlots := by
        rw [done.held_add separate]
        abel

/-- **Nothing is lost and nothing is doubled.** An operation that does not copy, is given different
slots and takes place does so step by step, and does what is written down for it. The labels in its
slots balance; what is moved or taken apart is left as the empty block; every other slot is as it
was. Over any slots, labels come only from the operation, and go only into its answer or with what
it overwrites. -/
theorem perform_conserves {store behind : Store} {operation : Operation} {answer : Answer}
    (moves : operation.copies = false) (separate : operation.slots.Nodup)
    (performed : store.perform operation = .ok (answer, behind)) :
    (Forest.moves operation).run store.forest = .ok (.ofStore answer) behind.forest ∧
    Done store operation answer behind ∧
    Balanced store behind operation answer ∧
    (∀ slot ∈ operation.emptied, behind.fragments slot = .empty) ∧
    (∀ slot ∉ operation.slots, behind.fragments slot = store.fragments slot) ∧
    (∀ slot ∉ operation.programSlots, behind.programs slot = store.programs slot) ∧
    ∀ slots programs : Finset String, (∀ slot ∈ operation.slots, slot ∈ slots) →
      (∀ slot ∈ operation.programSlots, slot ∈ programs) →
      behind.total slots programs + operation.returned answer + store.dropped operation answer =
        store.total slots programs + operation.made := by
  have done := done_of_perform moves performed
  have steps := Forest.run_moves store.forest operation
  rw [Forest.perform_forest, performed] at steps
  generalize (Forest.moves operation).run store.forest = result at steps ⊢
  obtain ⟨same⟩ := steps
  refine ⟨by rw [same separate], done, done.balanced separate, done.empties separate,
    fun _ => done.fragments_other, fun _ => done.programs_other, ?_⟩
  exact fun _ _ within programsWithin => done.total_add moves separate within programsWithin

/-- An IF with ELSE is taken apart: its slot is empty, and its bodies stand in the two others. -/
theorem perform_conserves_twoBodies :
    let skip : Block := [.call ⟨"skip", by decide⟩]
    let turn : Block := [.call ⟨"turnleft", by decide⟩]
    let store := fresh.put "self" (.statement (.ifElse .random skip turn))
    ∃ behind, store.perform (.disassembleIfElse "self" "then" "else") =
        .ok (.condition .random, behind) ∧
      behind.fragments "self" = .empty ∧
      store.tally "self" = {.ifElse .random} + (behind.tally "then" + behind.tally "else") := by
  intro skip turn store
  have performed : store.perform (.disassembleIfElse "self" "then" "else") =
      .ok (.condition .random,
        ((store.clear "self").put "then" (.block skip)).put "else" (.block turn)) := rfl
  obtain ⟨_, _, balanced, empty, _⟩ := perform_conserves rfl (by decide) performed
  exact ⟨_, performed, empty "self" List.mem_cons_self, balanced⟩

/-- Whatever operations that do not copy leave in the slots was there, or one of them made it. -/
theorem total_run_le {operations : List Operation} {slots programs : Finset String}
    (moves : ∀ operation ∈ operations, operation.copies = false)
    (separate : ∀ operation ∈ operations, operation.slots.Nodup)
    (within : ∀ operation ∈ operations, ∀ slot ∈ operation.slots, slot ∈ slots)
    (programsWithin : ∀ operation ∈ operations, ∀ slot ∈ operation.programSlots, slot ∈ programs)
    (store : Store) :
    (store.run operations).total slots programs ≤
      store.total slots programs + (operations.map Operation.made).sum := by
  induction operations generalizing store with
  | nil => exact le_of_eq (add_zero _).symm
  | cons operation more ih =>
    rw [List.forall_mem_cons] at moves separate within programsWithin
    have step : (store.after operation).total slots programs ≤
        store.total slots programs + operation.made := by
      unfold after
      cases performed : store.perform operation with
      | error failure => exact Multiset.le_add_right _ _
      | ok done =>
        obtain ⟨answer, behind⟩ := done
        rw [← (done_of_perform moves.1 performed).total_add moves.1 separate.1 within.1
          programsWithin.1, add_assoc]
        exact Multiset.le_add_right _ _
    calc ((store.after operation).run more).total slots programs
        ≤ (store.after operation).total slots programs + (more.map Operation.made).sum :=
          ih moves.2 separate.2 within.2 programsWithin.2 _
      _ ≤ store.total slots programs + operation.made + (more.map Operation.made).sum :=
          add_le_add_left step _
      _ = store.total slots programs + ((operation :: more).map Operation.made).sum := by
          rw [List.map_cons, List.sum_cons, add_assoc]

end Store

end BlockLanguage
