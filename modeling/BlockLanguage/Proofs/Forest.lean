/-
**Stores of trees.**

A forest is a store with trees and outlines in its slots. Its operations move whole trees between
slots and look at labels only where a check tells them to; no type keeps what they build in shape.
Seen as a forest, a store goes through every operation as the forest does: with the same answers,
the same failures and the same slots behind it.

* `perform_forest`, `after_forest`: one operation on a store and on the forest that it is seen as.
* `run_forest`: any number of them.
* `Shaped.exists_store`, `Shaped.after`: a forest in shape is the view of a store, and every
  operation keeps it in shape.
* `Reachable.shaped`: so is whatever operations and parses lead to.
-/

import BlockLanguage.Proofs.TreeEdit
import BlockLanguage.Store

namespace BlockLanguage

/-- Slots with trees and slots with outlines, by name. -/
structure Forest where
  trees : String → Tree
  programs : String → Option Outline

namespace Forest

/-- The forest in which nothing has been built. -/
def fresh : Forest := ⟨fun _ => .empty, fun _ => none⟩

/-- The forest with a tree in a slot. -/
def put (forest : Forest) (slot : String) (tree : Tree) : Forest :=
  { forest with trees := fun asked => if asked = slot then tree else forest.trees asked }

/-- The forest with an empty block in a slot. -/
def clear (forest : Forest) (slot : String) : Forest := forest.put slot .empty

/-- The forest with an outline in a slot. -/
def putProgram (forest : Forest) (slot : String) (program : Outline) : Forest :=
  { forest with
    programs := fun asked => if asked = slot then some program else forest.programs asked }

/-- What an operation answers. -/
inductive Answer
  | done
  | truth (holds : Bool)
  | condition (condition : Condition)
  | name (name : String)

/-- Why an operation does not take place. -/
inductive Failure
  | known (failure : Store.Failure)
  /-- The statement in a slot has been emptied, and then a part was missing that it should have. -/
  | torn (self : String)

/-- The result of a check, as the result of an operation. -/
def checked {α : Type} (result : Except Refusal α) : Except Failure α :=
  (Store.checked result).mapError .known

/-- The result of a parse, as the result of an operation. -/
def parsed {α : Type} (result : Except ParseError α) : Except Failure α :=
  (Store.parsed result).mapError .known

/-- The outline in a slot. -/
def program (forest : Forest) (slot : String) : Except Failure Outline :=
  match forest.programs slot with
  | some program => .ok program
  | none => .error (.known .noProgram)

/-- Moves the body out of an IF or a WHILE. -/
def takeBody (forest : Forest) (expected : Kind) (self body : String) :
    Except Failure (Answer × Forest) := do
  match ← checked ((forest.trees self).takeParts expected) with
  | (some condition, part :: _) => return (.condition condition, (forest.clear self).put body part)
  | _ => throw (.torn self)

/-- The answer to an operation and the forest behind it, unless it does not take place. -/
def perform (forest : Forest) : Store.Operation → Except Failure (Answer × Forest)
  | .new self => return (.done, forest.clear self)
  | .add self position child => do
    let block ← checked ((forest.trees self).insert position (forest.trees child))
    return (.done, (forest.clear child).put self block)
  | .remove self position target => do
    let (removed, block) ← checked ((forest.trees self).remove position)
    return (.done, (forest.put self block).put target removed)
  | .assembleIf self condition body => do
    let made ← checked (Tree.assemble (.ifThen condition) [forest.trees body])
    return (.done, (forest.clear body).put self made)
  | .assembleIfElse self condition thenBody elseBody => do
    let made ← checked
      (Tree.assemble (.ifElse condition) [forest.trees thenBody, forest.trees elseBody])
    return (.done, ((forest.clear thenBody).clear elseBody).put self made)
  | .assembleWhile self condition body => do
    let made ← checked (Tree.assemble (.whileDo condition) [forest.trees body])
    return (.done, (forest.clear body).put self made)
  | .assembleCall self name => do
    let made ← checked (Tree.call name)
    return (.done, forest.put self made)
  | .disassembleIf self body => forest.takeBody .ifThen self body
  | .disassembleIfElse self thenBody elseBody => do
    match ← checked ((forest.trees self).takeParts .ifElse) with
    | (some condition, parts) =>
      return (.condition condition,
        ((forest.clear self).put thenBody (parts.getD 0 .empty)).put elseBody (parts.getD 1 .empty))
    | _ => throw (.torn self)
  | .disassembleWhile self body => forest.takeBody .whileDo self body
  | .disassembleCall self => do
    match ← checked (forest.trees self).takeName with
    | some name => return (.name name, forest.clear self)
    | none => throw (.torn self)
  | .transfer self source => return (.done, (forest.clear source).put self (forest.trees source))
  | .clone self source => return (.done, forest.put self (forest.trees source))
  | .parse self form text => do
    let fragment ← parsed (Fragment.parse form {} (tokenize text))
    return (.done, forest.put self fragment.tree)
  | .newProgram self name => do
    let made ← checked (Outline.new name)
    return (.done, forest.putProgram self made)
  | .parseProgram self text => do
    let made ← parsed (Program.parse {} (tokenize text))
    return (.done, forest.putProgram self made.outline)
  | .define self name body => do
    let before ← forest.program self
    let made ← checked (before.define name (forest.trees body))
    return (.done, (forest.clear body).putProgram self made)
  | .undefine self name target => do
    let before ← forest.program self
    match before.context name with
    | none => return (.truth false, forest)
    | some body =>
      return (.truth true, (forest.putProgram self (before.undefine name)).put target body)
  | .swapBody self body => do
    let before ← forest.program self
    let (made, old) ← checked (before.swapBody (forest.trees body))
    return (.done, (forest.putProgram self made).put body old)
  | .cloneProgram self copy => do
    let program ← forest.program self
    return (.done, forest.putProgram copy program)

/-- The forest behind an operation, whether or not it takes place. -/
def after (forest : Forest) (operation : Store.Operation) : Forest :=
  match forest.perform operation with
  | .ok (_, changed) => changed
  | .error (.known _) => forest
  | .error (.torn self) => forest.clear self

/-- The forest behind operations, one after another. -/
def run (forest : Forest) (operations : List Store.Operation) : Forest :=
  operations.foldl after forest

end Forest

/-! ### Stores seen as forests -/

/-- A store, seen as a forest. -/
def Store.forest (store : Store) : Forest :=
  ⟨fun slot => (store.fragments slot).tree, fun slot => (store.programs slot).map Program.outline⟩

namespace Forest

/-- What an operation on a store answers, with the text of a name. -/
def Answer.ofStore : Store.Answer → Answer
  | .done => .done
  | .truth holds => .truth holds
  | .condition tested => .condition tested
  | .name called => .name called.text

/-- The result of an operation on a store, seen as that of one on a forest. -/
def seen : Except Store.Failure (Store.Answer × Store) → Except Failure (Answer × Forest)
  | .ok (answer, store) => .ok (.ofStore answer, store.forest)
  | .error failure => .error (.known failure)

variable (store : Store)

@[simp] theorem forest_put (slot : String) (fragment : Fragment) :
    (store.put slot fragment).forest = store.forest.put slot fragment.tree := by
  unfold Store.forest put
  congr 1
  funext asked
  exact apply_ite Fragment.tree _ _ _

@[simp] theorem forest_clear (slot : String) :
    (store.clear slot).forest = store.forest.clear slot := forest_put store slot .empty

@[simp] theorem forest_putProgram (slot : String) (program : Program) :
    (store.putProgram slot program).forest = store.forest.putProgram slot program.outline := by
  unfold Store.forest putProgram
  congr 1
  funext asked
  exact apply_ite (Option.map Program.outline) _ _ _

/-- An operation that takes place on both sides. -/
theorem seen_ok (answer : Store.Answer) {after : Store} {forest : Forest}
    (same : after.forest = forest) :
    (Except.ok (.ofStore answer, forest)) = seen (.ok (answer, after)) := by
  rw [← same]
  rfl

/-- A check that is made on both sides, and what follows it. -/
theorem checked_bind {α β : Type} {result : Except Refusal α} {view : α → β}
    {here : β → Except Failure (Answer × Forest)}
    {there : α → Except Store.Failure (Store.Answer × Store)}
    (alike : ∀ value, here (view value) = seen (there value)) :
    (checked (result.map view) >>= here) = seen (Store.checked result >>= there) := by
  cases result with
  | ok value => exact alike value
  | error refusal => rfl

/-- A parse that is made on both sides, and what follows it. -/
theorem parsed_bind {α : Type} {result : Except ParseError α}
    {here : α → Except Failure (Answer × Forest)}
    {there : α → Except Store.Failure (Store.Answer × Store)}
    (alike : ∀ value, here value = seen (there value)) :
    (parsed result >>= here) = seen (Store.parsed result >>= there) := by
  cases result with
  | ok value => exact alike value
  | error failure => rfl

/-- The program in a slot is the one seen in the forest. -/
theorem program_bind {slot : String} {here : Outline → Except Failure (Answer × Forest)}
    {there : Program → Except Store.Failure (Store.Answer × Store)}
    (alike : ∀ program : Program, here program.outline = seen (there program)) :
    (store.forest.program slot >>= here) = seen (store.program slot >>= there) := by
  have view : store.forest.programs slot = (store.programs slot).map Program.outline := rfl
  unfold program Store.program
  rw [view]
  cases store.programs slot with
  | some program => exact alike program
  | none => rfl

/-- **An operation on a store is the operation on the forest.** -/
theorem perform_forest (operation : Store.Operation) :
    store.forest.perform operation = seen (store.perform operation) := by
  -- In each case the first check decides alike, and behind it the same slots are filled.
  cases operation with
  | new self => exact seen_ok .done (forest_clear store self)
  | add self position child =>
    show checked
      ((store.fragments self).tree.insert position (store.fragments child).tree) >>= _ = _
    rw [Tree.insert_tree]
    exact checked_bind fun block => seen_ok .done (by simp)
  | remove self position target =>
    show checked ((store.fragments self).tree.remove position) >>= _ = _
    rw [Tree.remove_tree]
    refine checked_bind ?_
    rintro ⟨removed, block⟩
    exact seen_ok .done (by simp)
  | assembleIf self condition body =>
    show checked (Tree.assemble (.ifThen condition) [(store.fragments body).tree]) >>= _ = _
    rw [Tree.assemble_ifThen]
    exact checked_bind fun made => seen_ok .done (by simp)
  | assembleIfElse self condition thenBody elseBody =>
    show checked (Tree.assemble (.ifElse condition)
      [(store.fragments thenBody).tree, (store.fragments elseBody).tree]) >>= _ = _
    rw [Tree.assemble_ifElse]
    exact checked_bind fun made => seen_ok .done (by simp)
  | assembleWhile self condition body =>
    show checked (Tree.assemble (.whileDo condition) [(store.fragments body).tree]) >>= _ = _
    rw [Tree.assemble_whileDo]
    exact checked_bind fun made => seen_ok .done (by simp)
  | assembleCall self name =>
    show checked (Tree.call name) >>= _ = _
    rw [Tree.call_tree]
    exact checked_bind fun made => seen_ok .done (by simp)
  | disassembleIf self body =>
    show checked ((store.fragments self).tree.takeParts .ifThen) >>= _ = _
    rw [Tree.takeParts_ifThen]
    refine checked_bind ?_
    rintro ⟨condition, part⟩
    exact seen_ok (.condition condition) (by simp)
  | disassembleIfElse self thenBody elseBody =>
    show checked ((store.fragments self).tree.takeParts .ifElse) >>= _ = _
    rw [Tree.takeParts_ifElse]
    refine checked_bind ?_
    rintro ⟨condition, thenPart, elsePart⟩
    exact seen_ok (.condition condition) (by simp)
  | disassembleWhile self body =>
    show checked ((store.fragments self).tree.takeParts .whileDo) >>= _ = _
    rw [Tree.takeParts_whileDo]
    refine checked_bind ?_
    rintro ⟨condition, part⟩
    exact seen_ok (.condition condition) (by simp)
  | disassembleCall self =>
    show checked (store.fragments self).tree.takeName >>= _ = _
    rw [Tree.takeName_tree]
    exact checked_bind fun name => seen_ok (.name name) (by simp)
  | transfer self source => exact seen_ok .done (by simp; rfl)
  | clone self source => exact seen_ok .done (by simp; rfl)
  | parse self form text => exact parsed_bind fun fragment => seen_ok .done (by simp)
  | newProgram self name =>
    show checked (Outline.new name) >>= _ = _
    rw [Outline.new_outline]
    exact checked_bind fun made => seen_ok .done (by simp)
  | parseProgram self text => exact parsed_bind fun fragment => seen_ok .done (by simp)
  | define self name body =>
    refine program_bind store fun program => ?_
    show checked (program.outline.define name (store.fragments body).tree) >>= _ = _
    rw [Outline.define_outline]
    exact checked_bind fun made => seen_ok .done (by simp)
  | undefine self name target =>
    refine program_bind store fun program => ?_
    have view : program.outline.context name = (program.instruction? name).map Block.tree := rfl
    rw [view]
    cases program.instruction? name with
    | none => exact seen_ok (.truth false) rfl
    | some body => exact seen_ok (.truth true) (by simp [Outline.undefine_outline]; rfl)
  | swapBody self body =>
    refine program_bind store fun program => ?_
    show checked (program.outline.swapBody (store.fragments body).tree) >>= _ = _
    rw [Outline.swapBody_outline]
    refine checked_bind ?_
    rintro ⟨made, old⟩
    exact seen_ok .done (by simp)
  | cloneProgram self copy => exact program_bind store fun program => seen_ok .done (by simp)

/-- Whether or not an operation takes place, it leaves the store and the forest alike. -/
theorem after_forest (operation : Store.Operation) :
    store.forest.after operation = (store.after operation).forest := by
  unfold after Store.after
  rw [perform_forest]
  cases store.perform operation <;> rfl

/-- Any operations leave the store and the forest alike. -/
theorem run_forest (operations : List Store.Operation) :
    store.forest.run operations = (store.run operations).forest := by
  induction operations generalizing store with
  | nil => rfl
  | cons operation more ih =>
    show (store.forest.after operation).run more = ((store.after operation).run more).forest
    rw [after_forest, ih]

/-! ### Forests in shape -/

/-- Every tree and every outline in a slot is in shape. -/
structure Shaped (forest : Forest) : Prop where
  trees : ∀ slot, (forest.trees slot).Shaped
  programs : ∀ slot outline, forest.programs slot = some outline → outline.Shaped

/-- A store is seen as a forest in shape. -/
theorem shaped_forest : store.forest.Shaped where
  trees slot := (store.fragments slot).shaped_tree
  programs slot outline held := by
    obtain ⟨program, _, rfl⟩ := Option.map_eq_some_iff.mp held
    exact program.shaped_outline

namespace Shaped

variable {forest : Forest}

/-- **A forest in shape is the view of a store.** -/
theorem exists_store (shaped : forest.Shaped) : ∃ store : Store, store.forest = forest := by
  have programs : ∀ slot, ∃ held : Option Program,
      held.map Program.outline = forest.programs slot := by
    intro slot
    cases held : forest.programs slot with
    | none => exact ⟨none, rfl⟩
    | some outline =>
      obtain ⟨program, rfl⟩ := (shaped.programs slot outline held).exists_program
      exact ⟨some program, rfl⟩
  obtain ⟨fragmentAt, sameTrees⟩ :=
    Classical.skolem.mp fun slot => (forest.trees slot).exists_fragment (shaped.trees slot)
  obtain ⟨programAt, samePrograms⟩ := Classical.skolem.mp programs
  refine ⟨⟨fragmentAt, programAt⟩, ?_⟩
  unfold Store.forest
  rw [funext sameTrees, funext samePrograms]

/-- Every operation keeps a forest in shape, whether or not it takes place. -/
theorem after (shaped : forest.Shaped) (operation : Store.Operation) :
    (forest.after operation).Shaped := by
  obtain ⟨store, rfl⟩ := shaped.exists_store
  rw [after_forest]
  exact shaped_forest (store.after operation)

/-- A tree in shape may be put into any slot. -/
theorem put (shaped : forest.Shaped) (slot : String) {tree : Tree} (inShape : tree.Shaped) :
    (forest.put slot tree).Shaped where
  trees asked := by
    unfold Forest.put
    by_cases here : asked = slot
    · simpa only [if_pos here] using inShape
    · simpa only [if_neg here] using shaped.trees asked
  programs := shaped.programs

/-- An outline in shape may be put into any slot. -/
theorem putProgram (shaped : forest.Shaped) (slot : String) {program : Outline}
    (inShape : program.Shaped) : (forest.putProgram slot program).Shaped where
  trees := shaped.trees
  programs asked outline := by
    unfold Forest.putProgram
    by_cases here : asked = slot
    · simp only [if_pos here]
      rintro ⟨⟩
      exact inShape
    · simpa only [if_neg here] using shaped.programs asked outline

end Shaped

/-! ### What can be built -/

/-- What operations lead to, and parses of any tokens into a slot. -/
inductive Reachable : Forest → Prop
  | fresh : Reachable fresh
  | after {forest : Forest} (reached : Reachable forest) (operation : Store.Operation) :
    Reachable (forest.after operation)
  | parse {forest : Forest} (reached : Reachable forest) (slot : String) {form : Fragment.Form}
    {options : Options} {tokens : List Token} {fragment : Fragment}
    (parsed : Fragment.parse form options tokens = .ok fragment) :
    Reachable (forest.put slot fragment.tree)
  | parseProgram {forest : Forest} (reached : Reachable forest) (slot : String)
    {options : Options} {tokens : List Token} {program : Program}
    (parsed : Program.parse options tokens = .ok program) :
    Reachable (forest.putProgram slot program.outline)

namespace Reachable

/-- Operations lead from what can be built to what can be built. -/
theorem run {forest : Forest} (reached : Reachable forest) (operations : List Store.Operation) :
    Reachable (forest.run operations) := by
  induction operations generalizing forest with
  | nil => exact reached
  | cons operation more ih => exact ih (reached.after operation)

/-- **What can be built is in shape.** -/
theorem shaped {forest : Forest} (reached : Reachable forest) : forest.Shaped := by
  induction reached with
  | fresh => exact shaped_forest .fresh
  | after _ operation ih => exact ih.after operation
  | @parse _ _ slot _ _ _ fragment _ ih => exact ih.put slot fragment.shaped_tree
  | @parseProgram _ _ slot _ _ program _ ih => exact ih.putProgram slot program.shaped_outline

end Reachable

end Forest

end BlockLanguage
