/-
**Building every statement and every program.**

Whatever is in shape can be built by operations. Slots are numbered by levels: a fragment is built
at a level and its parts at the levels above, so that nothing below is touched. A block is built
from its last statement to its first, each put in front of those behind it; a program gets its
definitions one by one and its body last.

* `Statement.builds_building`, `Block.builds_building`: the operations for a statement and a block.
* `Fragment.run_building`, `Program.run_building`: every fragment and every program can be built.
* `Forest.reachable_exact`: what can be built is what is in shape.
-/

import BlockLanguage.Proofs.Forest

namespace BlockLanguage

namespace Store

/-- The slot of a level. -/
def slot (level : Nat) : String := String.ofList (List.replicate level 'x')

theorem slot_ne {first second : Nat} (other : first ≠ second) : slot first ≠ slot second := by
  intro same
  have texts := String.ofList_inj.mp same
  exact other (by simpa using congrArg List.length texts)

/-- The slots below a level and the programs are as before. -/
structure Keeps (level : Nat) (before behind : Store) : Prop where
  below : ∀ lower, lower < level → behind.fragments (slot lower) = before.fragments (slot lower)
  programs : behind.programs = before.programs

variable {level : Nat} {before mid behind : Store}

namespace Keeps

theorem refl (level : Nat) (store : Store) : Keeps level store store := ⟨fun _ _ => rfl, rfl⟩

theorem trans (first : Keeps level before mid) (second : Keeps level mid behind) :
    Keeps level before behind :=
  ⟨fun lower under => (second.below lower under).trans (first.below lower under),
    second.programs.trans first.programs⟩

theorem lower {deeper : Nat} (kept : Keeps level before behind) (under : deeper ≤ level) :
    Keeps deeper before behind :=
  ⟨fun lowest less => kept.below lowest (Nat.lt_of_lt_of_le less under), kept.programs⟩

/-- A slot at or above a level is not below it. -/
theorem put {here : Nat} (kept : Keeps level before behind) (above : level ≤ here)
    (fragment : Fragment) : Keeps level before (behind.put (slot here) fragment) := by
  refine ⟨fun lower under => ?_, kept.programs⟩
  have other : slot lower ≠ slot here := slot_ne (by omega)
  exact (if_neg other).trans (kept.below lower under)

end Keeps

/-! ### Steps -/

theorem run_append (store : Store) (first second : List Operation) :
    store.run (first ++ second) = (store.run first).run second := List.foldl_append

theorem run_singleton (store : Store) (operation : Operation) :
    store.run [operation] = store.after operation := rfl

theorem after_of_perform {operation : Operation} {answer : Answer}
    (step : before.perform operation = .ok (answer, behind)) : before.after operation = behind := by
  unfold after
  rw [step]

theorem after_assembleIf {self body : String} {statements : Block} (condition : Condition)
    (holds : before.fragments body = .block statements) :
    before.after (.assembleIf self condition body) =
      (before.clear body).put self (.statement (.ifThen condition statements)) := by
  unfold after perform
  simp only [holds]
  rfl

theorem after_assembleWhile {self body : String} {statements : Block} (condition : Condition)
    (holds : before.fragments body = .block statements) :
    before.after (.assembleWhile self condition body) =
      (before.clear body).put self (.statement (.whileDo condition statements)) := by
  unfold after perform
  simp only [holds]
  rfl

theorem after_assembleIfElse {self thenBody elseBody : String} {statements others : Block}
    (condition : Condition) (holds : before.fragments thenBody = .block statements)
    (holdsElse : before.fragments elseBody = .block others) :
    before.after (.assembleIfElse self condition thenBody elseBody) =
      ((before.clear thenBody).clear elseBody).put self
        (.statement (.ifElse condition statements others)) := by
  unfold after perform
  simp only [holds, holdsElse]
  rfl

theorem after_assembleCall (self : String) (name : Identifier) :
    before.after (.assembleCall self name.text) = before.put self (.statement (.call name)) := by
  unfold after perform
  simp only [Fragment.call, Identifier.ofText?_text]
  rfl

/-- A statement is put in front of those of a block. -/
theorem after_add {self child : String} {statements : Block} {s : Statement}
    (holds : before.fragments self = .block statements)
    (holdsChild : before.fragments child = .statement s) :
    before.after (.add self 0 child) =
      (before.clear child).put self (.block (s :: statements)) := by
  unfold after perform
  simp only [holds, holdsChild]
  rfl

end Store

/-! ### Fragments -/

open Store

mutual

/-- The operations that build a statement at a level. -/
def Statement.building (level : Nat) : Statement → List Operation
  | .ifThen c body =>
    Block.building (level + 1) body ++ [.assembleIf (slot level) c (slot (level + 1))]
  | .ifElse c thenBody elseBody =>
    Block.building (level + 1) thenBody ++ Block.building (level + 2) elseBody ++
      [.assembleIfElse (slot level) c (slot (level + 1)) (slot (level + 2))]
  | .whileDo c body =>
    Block.building (level + 1) body ++ [.assembleWhile (slot level) c (slot (level + 1))]
  | .call name => [.assembleCall (slot level) name.text]

/-- The operations that build a block at a level. -/
def Block.building (level : Nat) : List Statement → List Operation
  | [] => [.new (slot level)]
  | first :: more =>
    Block.building level more ++ first.building (level + 1) ++
      [.add (slot level) 0 (slot (level + 1))]

end

/-- From a store, operations leave a fragment at a level, and what is below the level as it was. -/
structure Store.Builds (level : Nat) (fragment : Fragment) (store : Store)
    (operations : List Operation) : Prop where
  built : (store.run operations).fragments (slot level) = fragment
  kept : Keeps level store (store.run operations)

/-- The last operation puts the fragment at its level. -/
theorem Store.Builds.of_last {level : Nat} {fragment : Fragment} {store rest : Store}
    {operations : List Operation} {last : Operation}
    (step : (store.run operations).after last = rest.put (slot level) fragment)
    (kept : Keeps level store rest) : Builds level fragment store (operations ++ [last]) := by
  have behind : store.run (operations ++ [last]) = rest.put (slot level) fragment := by
    rw [run_append, run_singleton, step]
  exact ⟨behind ▸ fragments_put rest (slot level) fragment,
    behind ▸ kept.put (Nat.le_refl level) fragment⟩

mutual

/-- A statement is built by its operations. -/
theorem Statement.builds_building :
    ∀ (s : Statement) (level : Nat) (store : Store),
      Builds level (.statement s) store (s.building level)
  | .ifThen c body, level, store => by
    have part := Block.builds_building body (level + 1) store
    have above : level ≤ level + 1 := Nat.le_succ level
    exact .of_last (after_assembleIf c part.built) ((part.kept.lower above).put above .empty)
  | .ifElse c thenBody elseBody, level, store => by
    have part := Block.builds_building thenBody (level + 1) store
    have elsePart := Block.builds_building elseBody (level + 2)
      (store.run (Block.building (level + 1) thenBody))
    -- the first body stands below the second one's level, so it is still in its slot
    have stands := (elsePart.kept.below (level + 1) (Nat.lt_succ_self _)).trans part.built
    have kept := (part.kept.lower (Nat.le_succ level)).trans (elsePart.kept.lower (by omega))
    have built := elsePart.built
    rw [← run_append] at stands built kept
    exact .of_last (after_assembleIfElse c stands built)
      ((kept.put (by omega) .empty).put (by omega) .empty)
  | .whileDo c body, level, store => by
    have part := Block.builds_building body (level + 1) store
    have above : level ≤ level + 1 := Nat.le_succ level
    exact .of_last (after_assembleWhile c part.built) ((part.kept.lower above).put above .empty)
  | .call name, level, store =>
    @Builds.of_last _ _ store _ [] _ (after_assembleCall (slot level) name) (.refl level store)

/-- A block is built by its operations. -/
theorem Block.builds_building :
    ∀ (body : List Statement) (level : Nat) (store : Store),
      Builds level (.block body) store (Block.building level body)
  | [], level, store => @Builds.of_last _ _ store store [] _ rfl (.refl level store)
  | first :: more, level, store => by
    have rest := Block.builds_building more level store
    have head := Statement.builds_building first (level + 1)
      (store.run (Block.building level more))
    have stands := (head.kept.below level (Nat.lt_succ_self level)).trans rest.built
    have kept := rest.kept.trans (head.kept.lower (Nat.le_succ level))
    have built := head.built
    rw [← run_append] at stands built kept
    exact .of_last (after_add stands built) (kept.put (Nat.le_succ level) .empty)

end

/-- The operations that build a fragment. -/
def Fragment.building : Fragment → List Operation
  | .block statements => Block.building 0 statements
  | .statement s => s.building 0

/-- **Every fragment can be built.** -/
theorem Fragment.run_building (fragment : Fragment) (store : Store) :
    (store.run fragment.building).fragments (slot 0) = fragment := by
  cases fragment with
  | block statements => exact (Block.builds_building statements 0 store).built
  | statement s => exact (s.builds_building 0 store).built

/-! ### Programs -/

/-- The operations that define instructions, one after another. -/
def Context.defining (entries : Context.Entries) : List Operation :=
  entries.flatMap fun entry =>
    Block.building 0 entry.2 ++ [.define (slot 0) entry.1.text (slot 0)]

/-- The operations that build a program. -/
def Program.building (program : Program) : List Operation :=
  [.newProgram (slot 0) program.name.text] ++ Context.defining program.context.entries ++
    Block.building 0 program.body ++ [.swapBody (slot 0) (slot 0)]

theorem Store.program_eq_ok {store : Store} {self : String} {program : Program}
    (holds : store.programs self = some program) : store.program self = .ok program := by
  unfold Store.program
  rw [holds]

/-- A definition takes place if the name is free and has no meaning yet. -/
theorem Store.after_define {store : Store} {self held : String} {program : Program}
    {name : Identifier} {body : Block} (holds : store.programs self = some program)
    (holdsBody : store.fragments held = .block body)
    (free : Word.isPrimitive name.text = false) (fresh : program.instruction? name.text = none) :
    store.after (.define self name.text held) =
      (store.clear held).putProgram self
        { program with context := program.context.put name body free } := by
  have made : program.define name.text (.block body) =
      .ok { program with context := program.context.put name body free } := by
    unfold Program.define
    simp [free, fresh]
  refine @after_of_perform _ _ _ .done ?_
  show store.program self >>= _ = _
  rw [program_eq_ok holds]
  show Store.checked (program.define name.text (store.fragments held)) >>= _ = _
  rw [holdsBody, made]
  rfl

/-- What is defined first may as well have been defined before. -/
theorem Context.or_find?_put {context : Context} {key : Identifier} {body : Block}
    {more : Entries} {asked : String} (different : ∀ entry ∈ more, key.text ≠ entry.1.text)
    (free : Word.isPrimitive key.text = false) :
    (lookup asked more).or ((context.put key body free).find? asked) =
      (lookup asked ((key, body) :: more)).or (context.find? asked) := by
  rw [find?_put, lookup]
  by_cases here : key.text = asked
  · have absent : lookup asked more = none :=
      lookup_eq_none fun entry member => here ▸ (different entry member).symm
    rw [if_pos here, if_pos here, absent]
    rfl
  · rw [if_neg here, if_neg here]

/-- Definitions of different free names, none of which has a meaning yet, all take place. -/
theorem Context.run_defining {entries : Context.Entries} (sorted : Sorted entries)
    (definable : Definable entries) {store : Store} {program : Program}
    (holds : store.programs (slot 0) = some program)
    (fresh : ∀ entry ∈ entries, program.instruction? entry.1.text = none) :
    ∃ context : Context, (∀ asked, context.find? asked =
        (lookup asked entries).or (program.instruction? asked)) ∧
      (store.run (defining entries)).programs (slot 0) =
        some { program with context := context } := by
  induction entries generalizing store program with
  | nil => exact ⟨program.context, fun asked => rfl, holds⟩
  | cons entry more ih =>
    obtain ⟨key, body⟩ := entry
    obtain ⟨above, tailSorted⟩ := List.pairwise_cons.mp sorted
    obtain ⟨free, tailDefinable⟩ := List.forall_mem_cons.mp definable
    obtain ⟨headFresh, tailFresh⟩ := List.forall_mem_cons.mp fresh
    have different : ∀ entry ∈ more, key.text ≠ entry.1.text := fun entry member same =>
      String.lt_irrefl _ (same ▸ above entry member)
    have part := Block.builds_building body 0 store
    have stands : (store.run (Block.building 0 body)).programs (slot 0) = some program := by
      rw [part.kept.programs, holds]
    have step := after_define stands part.built free headFresh
    have defined := programs_putProgram ((store.run (Block.building 0 body)).clear (slot 0))
      (slot 0) { program with context := program.context.put key body free }
    rw [← step, ← run_singleton, ← run_append] at defined
    obtain ⟨context, means, behind⟩ := ih tailSorted tailDefinable defined (by
      intro entry member
      exact (find?_put program.context key body free entry.1.text).trans
        ((if_neg (different entry member)).trans (tailFresh entry member)))
    refine ⟨context, fun asked => (means asked).trans ?_, ?_⟩
    · exact or_find?_put different free
    · rw [defining, List.flatMap_cons, run_append]
      exact behind

/-- A program that is named anew defines nothing. -/
theorem Store.after_newProgram (store : Store) (self : String) (name : Identifier) :
    store.after (.newProgram self name.text) = store.putProgram self ⟨name, .empty, []⟩ := by
  unfold after perform
  simp only [Program.new, Identifier.ofText?_text]
  rfl

/-- A program takes a block as its body and gives back the one that it had. -/
theorem Store.after_swapBody {store : Store} {self held : String} {program : Program}
    {body : Block} (holds : store.programs self = some program)
    (holdsBody : store.fragments held = .block body) :
    store.after (.swapBody self held) =
      (store.putProgram self { program with body := body }).put held (.block program.body) := by
  refine @after_of_perform _ _ _ .done ?_
  show store.program self >>= _ = _
  rw [program_eq_ok holds]
  show Store.checked (program.swapBody (store.fragments held)) >>= _ = _
  rw [holdsBody]
  rfl

/-- **Every program can be built.** -/
theorem Program.run_building (program : Program) (store : Store) :
    (store.run program.building).programs (slot 0) = some program := by
  obtain ⟨name, context, body⟩ := program
  have named : (store.run [.newProgram (slot 0) name.text]).programs (slot 0) =
      some ⟨name, .empty, []⟩ := by
    rw [run_singleton, after_newProgram, programs_putProgram]
  obtain ⟨defined, means, behind⟩ := Context.run_defining context.sorted context.definable named
    fun _ _ => rfl
  have same : defined = context :=
    Context.ext_find? fun asked => (means asked).trans Option.or_none
  subst same
  have part := Block.builds_building body 0
    ((store.run [.newProgram (slot 0) name.text]).run (Context.defining defined.entries))
  have step := after_swapBody (part.kept.programs ▸ behind) part.built
  rw [← run_singleton] at step
  rw [building, run_append, run_append, run_append, step, programs_put, programs_putProgram]

/-! ### What can be built -/

namespace Forest

/-- Every tree in shape is built by operations. -/
theorem exists_run_trees {tree : Tree} (shaped : tree.Shaped) :
    ∃ operations slot, (fresh.run operations).trees slot = tree := by
  obtain ⟨fragment, rfl⟩ := tree.exists_fragment shaped
  refine ⟨fragment.building, slot 0, ?_⟩
  show ((Store.fresh.forest).run fragment.building).trees (slot 0) = fragment.tree
  rw [run_forest]
  exact congrArg Fragment.tree (fragment.run_building .fresh)

/-- Every outline in shape is built by operations. -/
theorem exists_run_programs {outline : Outline} (shaped : outline.Shaped) :
    ∃ operations slot, (fresh.run operations).programs slot = some outline := by
  obtain ⟨program, rfl⟩ := shaped.exists_program
  refine ⟨program.building, slot 0, ?_⟩
  show ((Store.fresh.forest).run program.building).programs (slot 0) = some program.outline
  rw [run_forest]
  exact congrArg (Option.map Program.outline) (program.run_building .fresh)

/-- **What can be built is what is in shape.** A tree stands in a slot after some operations and
parses, whether or not they take place, exactly if all its nodes fit the table; a program does
exactly if its names are identifiers, it defines nothing that is built in, and its bodies are
blocks that fit the table. The trees are those of the store on which the operations run. -/
theorem reachable_exact :
    (∀ tree, (∃ forest slot, Reachable forest ∧ forest.trees slot = tree) ↔ tree.Shaped) ∧
    (∀ outline, (∃ forest slot, Reachable forest ∧ forest.programs slot = some outline) ↔
      outline.Shaped) ∧
    ∀ operations, fresh.run operations = (Store.fresh.run operations).forest := by
  refine ⟨fun tree => ⟨?_, fun shaped => ?_⟩, fun outline => ⟨?_, fun shaped => ?_⟩,
    fun operations => ?_⟩
  · rintro ⟨forest, slot, reached, rfl⟩
    exact reached.shaped.trees slot
  · obtain ⟨operations, slot, stands⟩ := exists_run_trees shaped
    exact ⟨_, slot, Reachable.fresh.run operations, stands⟩
  · rintro ⟨forest, slot, reached, held⟩
    exact reached.shaped.programs slot outline held
  · obtain ⟨operations, slot, stands⟩ := exists_run_programs shaped
    exact ⟨_, slot, Reachable.fresh.run operations, stands⟩
  · exact run_forest .fresh operations

end Forest

end BlockLanguage
