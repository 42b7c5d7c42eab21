/-
**What is read stays within the nesting limit.**

A rule yields values with a property if everything that it reads, at any cursor, has the property.
The rules of the grammar yield statements, blocks and programs that are nested within the limit,
whatever the kinds and lexemes of the tokens.

* `Yields.bind`, `Yields.collect`, `Yields.iterate`: rules that are put together.
* `yields_block`, `yields_statement`, `yields_program`: the rules of the grammar.
-/

import BlockLanguage.Proofs.ProgramGrammar

namespace BlockLanguage

namespace Rule

variable {α β : Type}

/-- Every value that a rule reads has a property. -/
def Yields (rule : Rule α) (property : α → Prop) : Prop :=
  ∀ first value last, rule.run first = .ok (value, last) → property value

theorem yields_pure {value : α} {property : α → Prop} (holds : property value) :
    (pure value : Rule α).Yields property := by
  intro first found last read
  cases read
  exact holds

theorem yields_refuse (error : Cursor → ParseError) (property : α → Prop) :
    (refuse error : Rule α).Yields property := by
  intro first found last read
  cases read

theorem yields_true (rule : Rule α) : rule.Yields fun _ => True := fun _ _ _ _ => trivial

theorem Yields.bind {rule : Rule α} {next : α → Rule β} {property : α → Prop}
    {property' : β → Prop} (yields : rule.Yields property)
    (behind : ∀ value, property value → (next value).Yields property') :
    (rule >>= next).Yields property' := by
  intro first result last read
  obtain ⟨value, rest, readFirst, readNext⟩ := run_bind_eq_ok_iff.mp read
  exact behind value (yields _ _ _ readFirst) _ _ _ readNext

/-- Behind a rule whose value does not matter. -/
theorem Yields.behind {rule : Rule α} {next : α → Rule β} {property' : β → Prop}
    (behind : ∀ value, (next value).Yields property') : (rule >>= next).Yields property' :=
  (yields_true rule).bind fun value _ => behind value

section Repetition

variable {goesOn : Cursor → Bool}

theorem Yields.collect {rule : Rule α} {property : α → Prop} (yields : rule.Yields property)
    (progress : Progresses goesOn rule) :
    (collect goesOn rule progress).Yields fun values => ∀ value ∈ values, property value := by
  intro first values last read
  induction values generalizing first with
  | nil => exact List.forall_mem_nil _
  | cons value more ih =>
    obtain ⟨-, rest, readFirst, readMore⟩ :=
      (collectFrom_eq_ok_cons_iff goesOn rule progress).mp read
    exact List.forall_mem_cons.mpr ⟨yields _ _ _ readFirst, ih _ readMore⟩

private theorem yields_iterateFrom {rule : α → Rule α} {property : α → Prop}
    (yields : ∀ value, property value → (rule value).Yields property)
    (progress : ∀ value, Progresses goesOn (rule value)) (value : α) (holds : property value)
    {first last : Cursor} {result : α}
    (read : iterateFrom goesOn rule progress value first = .ok (result, last)) :
    property result := by
  rcases (iterateFrom_eq_ok_iff goesOn rule progress).mp read with
    ⟨-, rfl, -⟩ | ⟨again, next, rest, readFirst, behind⟩
  · exact holds
  · have shorter := progress _ _ _ _ again readFirst
    have holdsNext := yields value holds _ _ _ readFirst
    exact yields_iterateFrom yields progress next holdsNext behind
termination_by first.live.length

theorem Yields.iterate {rule : α → Rule α} {property : α → Prop}
    (yields : ∀ value, property value → (rule value).Yields property)
    (progress : ∀ value, Progresses goesOn (rule value)) (value : α) (holds : property value) :
    (iterate goesOn rule progress value).Yields property :=
  fun _ _ _ read => yields_iterateFrom yields progress value holds read

end Repetition

end Rule

namespace Grammar

open Rule

/-! ### Statements and blocks -/

section Statement

variable {levels : Nat} {nested : Rule Block}
  (yields : nested.Yields fun body => Block.depth body < levels)
include yields

theorem yields_ifStatement : (ifStatement nested).Yields fun s => s.depth ≤ levels := by
  refine .behind fun _ => .behind fun test => .behind fun _ => ?_
  refine yields.bind fun thenBody thenDepth => .behind fun more => ?_
  split
  · refine yields.bind fun elseBody elseDepth => .behind fun _ => .behind fun _ => yields_pure ?_
    rw [Statement.depth]
    exact Nat.max_lt.mpr ⟨thenDepth, elseDepth⟩
  · refine .behind fun _ => .behind fun _ => yields_pure ?_
    rw [Statement.depth]
    exact thenDepth

theorem yields_whileStatement : (whileStatement nested).Yields fun s => s.depth ≤ levels := by
  refine .behind fun _ => .behind fun test => .behind fun _ => ?_
  refine yields.bind fun body depth => .behind fun _ => .behind fun _ => yields_pure ?_
  rw [Statement.depth]
  exact depth

theorem yields_statementWith : (statementWith nested).Yields fun s => s.depth ≤ levels := by
  intro first s last read
  rw [run_statementWith] at read
  split at read
  · exact yields_ifStatement yields _ _ _ read
  · split at read
    · exact yields_whileStatement yields _ _ _ read
    · split at read
      · obtain ⟨name, rest, -, called⟩ := run_bind_eq_ok_iff.mp read
        cases called
        rw [Statement.depth]
        exact Nat.zero_le _
      · cases read

theorem yields_blockWith :
    (blockWith nested).Yields fun body => Block.depth body < levels + 1 := by
  intro first body last read
  have each := (yields_statementWith yields).collect (progresses_block nested) _ _ _ read
  exact Nat.lt_succ_of_le (Block.depth_le_iff.mpr each)

end Statement

theorem yields_inner (limit levels : Nat) :
    (inner limit levels).Yields fun body => Block.depth body < levels := by
  induction levels with
  | zero => exact yields_refuse _ _
  | succ levels ih => exact yields_blockWith ih

theorem yields_block (limit : Nat) : (block limit).Yields fun body => Block.depth body ≤ limit :=
  fun _ _ _ read => Nat.le_of_lt_succ (yields_blockWith (yields_inner limit limit) _ _ _ read)

theorem yields_statement (limit : Nat) : (statement limit).Yields fun s => s.depth ≤ limit :=
  yields_statementWith (yields_inner limit limit)

/-! ### Programs -/

theorem yields_definition (limit : Nat) (before : Context)
    (within : Context.Within limit before.entries) :
    (definition limit before).Yields fun after => Context.Within limit after.entries := by
  refine .behind fun _ => .behind fun named => .behind fun name => ?_
  split
  · refine .behind fun _ => (yields_block limit).bind fun body depth => .behind fun _ => ?_
    refine .behind fun _ => ?_
    split
    · exact yields_refuse _ _
    · refine yields_pure fun entry member => ?_
      rcases Context.mem_place member with rfl | kept
      · exact depth
      · exact within entry kept
  · exact yields_refuse _ _

theorem yields_definitions (limit : Nat) :
    (definitions limit).Yields fun context => Context.Within limit context.entries :=
  Yields.iterate (yields_definition limit) (progresses_definition limit) .empty
    (List.forall_mem_nil _)

/-- **A program that is read stays within the limit**, its definitions and its body. -/
theorem yields_program (limit : Nat) : (program limit).Yields fun program =>
    Context.Within limit program.context.entries ∧ Block.depth program.body ≤ limit := by
  refine .behind fun _ => .behind fun name => .behind fun _ => .behind fun cursor => ?_
  split
  · refine (yields_definitions limit).bind fun context within => .behind fun _ => ?_
    refine (yields_block limit).bind fun body depth => .behind fun _ => .behind fun _ => ?_
    exact .behind fun _ => yields_pure ⟨within, depth⟩
  · exact yields_refuse _ _

end Grammar

end BlockLanguage
