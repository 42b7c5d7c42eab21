/-
**What operations require.**

An operation on statements and programs requires something of the slots and names that it is given:
that a statement is of a kind, that a position lies inside of a block, that a name is an identifier
and free. The requirements have an order. An operation is refused exactly if one of them is not met,
and the refusal is that of the first which is not met. All of them are looked at before anything is
moved, so that a refusal leaves every slot as it was.

* `Store.requirements`, `Requirement.FirstUnmet`: what is required, and the first that is not met.
* `Store.perform_eq_refused_iff`: an operation is refused for its first requirement that is not met.
* `Store.run_moves_eq_error_iff`: step by step, an operation that fails leaves the store as it was.
* `Store.refused_unchanged`: both together.
-/

import BlockLanguage.Proofs.Moves

namespace BlockLanguage

/-- Something that an operation requires, and the refusal if it is not met. -/
structure Requirement where
  met : Bool
  refusal : Refusal

namespace Requirement

/-- A fragment is of a kind. -/
def ofKind (expected : Kind) (fragment : Fragment) : Requirement :=
  ⟨fragment.kind = expected, .wrongKind expected fragment.kind⟩

/-- A refusal is that of the first requirement that is not met. -/
def FirstUnmet (requirements : List Requirement) (refusal : Refusal) : Prop :=
  ∃ before behind, requirements = before ++ ⟨false, refusal⟩ :: behind ∧
    ∀ requirement ∈ before, requirement.met = true

end Requirement

open Requirement

/-- What an operation requires, in order. Of a program that is not there nothing is required. -/
def Store.requirements (store : Store) : Store.Operation → List Requirement
  | .new _ | .transfer _ _ | .clone _ _ | .parse _ _ _ => []
  | .parseProgram _ _ | .undefine _ _ _ | .cloneProgram _ _ => []
  | .add self position child =>
    let block := store.fragments self
    let length := block.tree.children.length
    [ofKind .block block, ⟨(store.fragments child).kind ≠ .block, .blockInBlock⟩,
      ⟨position ≤ length, .noPlace position length⟩]
  | .remove self position _ =>
    let block := store.fragments self
    let length := block.tree.children.length
    [ofKind .block block, ⟨position < length, .noStatement position length⟩]
  | .assembleIf _ _ body | .assembleWhile _ _ body => [ofKind .block (store.fragments body)]
  | .assembleIfElse _ _ thenBody elseBody =>
    [ofKind .block (store.fragments thenBody), ofKind .block (store.fragments elseBody)]
  | .assembleCall _ name => [⟨Word.isIdentifier name, .calledName name⟩]
  | .disassembleIf self _ => [ofKind .ifThen (store.fragments self)]
  | .disassembleIfElse self _ _ => [ofKind .ifElse (store.fragments self)]
  | .disassembleWhile self _ => [ofKind .whileDo (store.fragments self)]
  | .disassembleCall self => [ofKind .call (store.fragments self)]
  | .newProgram _ name => [⟨Word.isIdentifier name, .programName name⟩]
  | .define self name body =>
    match store.programs self with
    | none => []
    | some program =>
      [⟨Word.isIdentifier name, .definedName name⟩,
        ⟨(store.fragments body).kind = .block, .definedBody name⟩,
        ⟨!Word.isPrimitive name, .reserved name⟩,
        ⟨(program.instruction? name).isNone, .duplicate name⟩]
  | .swapBody self body =>
    match store.programs self with
    | none => []
    | some _ => [⟨(store.fragments body).kind = .block, .programBody⟩]

/-! ### The first that is not met -/

namespace Requirement

variable {requirement : Requirement} {more : List Requirement} {refusal : Refusal}

@[simp] theorem firstUnmet_nil_iff : FirstUnmet [] refusal ↔ False := by
  simp [FirstUnmet]

@[simp] theorem firstUnmet_cons_iff :
    FirstUnmet (requirement :: more) refusal ↔
      if requirement.met then FirstUnmet more refusal else requirement.refusal = refusal := by
  constructor
  · rintro ⟨before, behind, same, each⟩
    cases before with
    | nil =>
      obtain ⟨rfl, rfl⟩ := List.cons.inj same
      exact rfl
    | cons first others =>
      obtain ⟨rfl, rfl⟩ := List.cons.inj same
      obtain ⟨met, each⟩ := List.forall_mem_cons.mp each
      rw [if_pos met]
      exact ⟨others, behind, rfl, each⟩
  · intro later
    split at later
    · next met =>
      obtain ⟨before, behind, rfl, each⟩ := later
      exact ⟨requirement :: before, behind, rfl, List.forall_mem_cons.mpr ⟨met, each⟩⟩
    · next unmet =>
      obtain ⟨met, _⟩ := requirement
      obtain rfl := later
      obtain rfl : met = false := eq_false_of_ne_true unmet
      exact ⟨[], more, rfl, List.forall_mem_nil _⟩

/-- Something is not met exactly if there is a first that is not met. -/
theorem exists_firstUnmet_iff {requirements : List Requirement} :
    (∃ refusal, FirstUnmet requirements refusal) ↔
      ∃ requirement ∈ requirements, requirement.met = false := by
  induction requirements with
  | nil => simp
  | cons first more ih =>
    by_cases met : first.met = true
    · simp [met, ih]
    · simp [met]

end Requirement

/-! ### Building and taking apart -/

namespace Fragment

variable {refusal : Refusal}

theorem kind_block (body : Block) : (block body).kind = .block := rfl

theorem kind_statement_ne_block (s : Statement) : (statement s).kind ≠ .block :=
  s.kind_tree_ne_block

theorem insert_eq_error_iff {self child : Fragment} {position : Nat} :
    self.insert position child = .error refusal ↔
      FirstUnmet [ofKind .block self, ⟨child.kind ≠ .block, .blockInBlock⟩,
        ⟨position ≤ self.tree.children.length, .noPlace position self.tree.children.length⟩]
        refusal := by
  cases self with
  | statement s =>
    show (Except.error _ : Except Refusal Fragment) = _ ↔ _
    simp [ofKind, kind_statement_ne_block]
    rfl
  | block body =>
    have length : (block body).tree.children.length = body.length := by
      rw [Tree.children_block, List.length_map]
    cases child with
    | block inner =>
      show (Except.error _ : Except Refusal Fragment) = _ ↔ _
      simp [ofKind, kind_block]
    | statement s =>
      show (if position ≤ body.length then (Except.ok _ : Except Refusal Fragment)
        else Except.error _) = _ ↔ _
      by_cases inside : position ≤ body.length
      · simp [ofKind, kind_block, kind_statement_ne_block, length, inside]
      · simp [ofKind, kind_block, kind_statement_ne_block, length, inside]

theorem length_eq_error_iff {self : Fragment} :
    self.length = .error refusal ↔ FirstUnmet [ofKind .block self] refusal := by
  cases self with
  | block body =>
    show (Except.ok _ : Except Refusal Nat) = _ ↔ _
    simp [ofKind, kind_block]
  | statement s =>
    show (Except.error _ : Except Refusal Nat) = _ ↔ _
    simp [ofKind, kind_statement_ne_block]
    rfl

theorem remove_eq_error_iff {self : Fragment} {position : Nat} :
    self.remove position = .error refusal ↔
      FirstUnmet [ofKind .block self,
        ⟨position < self.tree.children.length, .noStatement position self.tree.children.length⟩]
        refusal := by
  cases self with
  | statement s =>
    show (Except.error _ : Except Refusal (Fragment × Fragment)) = _ ↔ _
    simp [ofKind, kind_statement_ne_block]
    rfl
  | block body =>
    have length : (block body).tree.children.length = body.length := by
      rw [Tree.children_block, List.length_map]
    by_cases inside : position < body.length
    · rw [remove_of_some (List.getElem?_eq_getElem inside)]
      simp [ofKind, kind_block, length, inside]
    · rw [remove_of_none (List.getElem?_eq_none (Nat.not_lt.mp inside))]
      simp [ofKind, kind_block, length, inside]

theorem pure_eq_error_iff {α : Type} {value : α} :
    (pure value : Except Refusal α) = .error refusal ↔ False := by
  simp [pure, Except.pure]

/-- What is made of a value does not fail. -/
theorem bind_pure_eq_error_iff {α β : Type} {result : Except Refusal α} {view : α → β} :
    (result >>= fun value => pure (view value)) = .error refusal ↔ result = .error refusal := by
  cases result with
  | ok value => simp [bind, Except.bind, pure, Except.pure]
  | error other => simp [bind, Except.bind]

theorem map_eq_error_iff {α β : Type} {result : Except Refusal α} {view : α → β} :
    result.map view = .error refusal ↔ result = .error refusal := by
  cases result with
  | ok value => simp [Except.map]
  | error other => simp [Except.map]

/-- A body has to be a block, and then what is behind it decides. -/
theorem asBlock_bind_eq_error_iff {α : Type} {body : Fragment} {next : Block → Except Refusal α}
    {requirements : List Requirement}
    (behind : ∀ statements, next statements = .error refusal ↔ FirstUnmet requirements refusal) :
    (body.asBlock >>= next) = .error refusal ↔
      FirstUnmet (ofKind .block body :: requirements) refusal := by
  cases body with
  | block statements =>
    rw [firstUnmet_cons_iff]
    exact behind statements
  | statement s =>
    show (Except.error _ : Except Refusal α) = _ ↔ _
    simp [ofKind, kind_statement_ne_block]
    rfl

theorem ifThen_eq_error_iff {condition : Condition} {body : Fragment} :
    ifThen condition body = .error refusal ↔ FirstUnmet [ofKind .block body] refusal :=
  asBlock_bind_eq_error_iff fun _ => pure_eq_error_iff.trans firstUnmet_nil_iff.symm

theorem whileDo_eq_error_iff {condition : Condition} {body : Fragment} :
    whileDo condition body = .error refusal ↔ FirstUnmet [ofKind .block body] refusal :=
  asBlock_bind_eq_error_iff fun _ => pure_eq_error_iff.trans firstUnmet_nil_iff.symm

theorem ifElse_eq_error_iff {condition : Condition} {thenBody elseBody : Fragment} :
    ifElse condition thenBody elseBody = .error refusal ↔
      FirstUnmet [ofKind .block thenBody, ofKind .block elseBody] refusal :=
  asBlock_bind_eq_error_iff fun _ => asBlock_bind_eq_error_iff fun _ =>
    pure_eq_error_iff.trans firstUnmet_nil_iff.symm

theorem call_eq_error_iff {text : String} :
    call text = .error refusal ↔
      FirstUnmet [⟨Word.isIdentifier text, .calledName text⟩] refusal := by
  unfold call
  cases named : Identifier.ofText? text with
  | none => simp [Identifier.ofText?_eq_none_iff.mp named]
  | some name =>
    obtain rfl := Identifier.ofText?_eq_some_iff.mp named
    simp [name.valid]

/-- A node of a kind is asked for, whatever is then done with its parts. -/
theorem require_eq_error_iff {self : Fragment} {expected : Kind} :
    self.tree.require expected = .error refusal ↔ FirstUnmet [ofKind expected self] refusal := by
  unfold Tree.require
  split
  · next same => simp [ofKind, kind, same]
  · next other => simp [ofKind, kind, other]

theorem takeParts_eq_error_iff {self : Fragment} {expected : Kind} :
    self.tree.takeParts expected = .error refusal ↔
      FirstUnmet [ofKind expected self] refusal := by
  rw [← require_eq_error_iff, Tree.takeParts, bind_pure_eq_error_iff]

theorem takeIfThen_eq_error_iff {self : Fragment} :
    self.takeIfThen = .error refusal ↔ FirstUnmet [ofKind .ifThen self] refusal := by
  rw [← takeParts_eq_error_iff, Tree.takeParts_ifThen, map_eq_error_iff]

theorem takeIfElse_eq_error_iff {self : Fragment} :
    self.takeIfElse = .error refusal ↔ FirstUnmet [ofKind .ifElse self] refusal := by
  rw [← takeParts_eq_error_iff, Tree.takeParts_ifElse, map_eq_error_iff]

theorem takeWhileDo_eq_error_iff {self : Fragment} :
    self.takeWhileDo = .error refusal ↔ FirstUnmet [ofKind .whileDo self] refusal := by
  rw [← takeParts_eq_error_iff, Tree.takeParts_whileDo, map_eq_error_iff]

theorem takeCall_eq_error_iff {self : Fragment} :
    self.takeCall = .error refusal ↔ FirstUnmet [ofKind .call self] refusal := by
  rw [← require_eq_error_iff, ← map_eq_error_iff, ← Tree.takeName_tree, Tree.takeName,
    bind_pure_eq_error_iff]

end Fragment

namespace Program

variable {refusal : Refusal}

theorem new_eq_error_iff {text : String} :
    new text = .error refusal ↔
      FirstUnmet [⟨Word.isIdentifier text, .programName text⟩] refusal := by
  unfold new
  cases named : Identifier.ofText? text with
  | none => simp [Identifier.ofText?_eq_none_iff.mp named]
  | some name =>
    obtain rfl := Identifier.ofText?_eq_some_iff.mp named
    simp [name.valid]

theorem define_eq_error_iff {program : Program} {text : String} {body : Fragment} :
    program.define text body = .error refusal ↔
      FirstUnmet [⟨Word.isIdentifier text, .definedName text⟩,
        ⟨body.kind = .block, .definedBody text⟩, ⟨!Word.isPrimitive text, .reserved text⟩,
        ⟨(program.instruction? text).isNone, .duplicate text⟩] refusal := by
  unfold define
  cases named : Identifier.ofText? text with
  | none => simp [Identifier.ofText?_eq_none_iff.mp named]
  | some name =>
    obtain rfl := Identifier.ofText?_eq_some_iff.mp named
    cases body with
    | statement s => simp [name.valid, Fragment.kind_statement_ne_block]
    | block statements =>
      by_cases free : Word.isPrimitive name.text = false
      · cases program.instruction? name.text with
        | none => simp [name.valid, Fragment.kind_block, free]
        | some body => simp [name.valid, Fragment.kind_block, free]
      · simp [name.valid, Fragment.kind_block, free]

theorem swapBody_eq_error_iff {program : Program} {body : Fragment} :
    program.swapBody body = .error refusal ↔
      FirstUnmet [⟨body.kind = .block, .programBody⟩] refusal := by
  cases body with
  | block statements => simp [swapBody, Fragment.kind_block]
  | statement s => simp [swapBody, Fragment.kind_statement_ne_block]

end Program

/-! ### Operations -/

namespace Store

variable {store : Store} {refusal : Refusal}

/-- An operation whose check holds takes place. -/
theorem checked_bind_eq_refused_iff {α : Type} {result : Except Refusal α}
    {next : α → Except Failure (Answer × Store)}
    (takesPlace : ∀ value, ∃ done, next value = .ok done) :
    (checked result >>= next) = .error (.refused refusal) ↔ result = .error refusal := by
  cases result with
  | ok value =>
    obtain ⟨done, made⟩ := takesPlace value
    show next value = _ ↔ _
    simp [made]
  | error other =>
    show (Except.error (Failure.refused other) : Except Failure (Answer × Store)) = _ ↔ _
    simp

/-- A parse is not refused. -/
theorem parsed_bind_ne_refused {α : Type} {result : Except ParseError α}
    {next : α → Except Failure (Answer × Store)}
    (takesPlace : ∀ value, ∃ done, next value = .ok done) :
    (parsed result >>= next) = .error (.refused refusal) ↔ False := by
  cases result with
  | ok value =>
    obtain ⟨done, made⟩ := takesPlace value
    show next value = _ ↔ _
    simp [made]
  | error other =>
    show (Except.error (Failure.unparsable other) : Except Failure (Answer × Store)) = _ ↔ _
    simp

/-- What takes place is not refused. -/
theorem ok_ne_refused {done : Answer × Store} :
    (Except.ok done : Except Failure (Answer × Store)) = .error (.refused refusal) ↔
      FirstUnmet [] refusal := by
  simp

/-- Without a program there is no refusal, and with one what is done with it decides. -/
theorem program_bind_eq_refused_iff {slot : String}
    {next : Program → Except Failure (Answer × Store)} {required : List Requirement}
    (missing : store.programs slot = none → required = [])
    (behind : ∀ program, store.programs slot = some program →
      (next program = .error (.refused refusal) ↔ FirstUnmet required refusal)) :
    (store.program slot >>= next) = .error (.refused refusal) ↔ FirstUnmet required refusal := by
  unfold program
  cases held : store.programs slot with
  | none =>
    rw [missing held]
    show (Except.error Failure.noProgram : Except Failure (Answer × Store)) = _ ↔ _
    simp
  | some program => exact behind program held

/-- **An operation is refused for the first requirement that is not met.** -/
theorem perform_eq_refused_iff {operation : Operation} :
    store.perform operation = .error (.refused refusal) ↔
      FirstUnmet (store.requirements operation) refusal := by
  have takesPlace : ∀ done : Answer × Store,
      ∃ same, (Except.ok done : Except Failure (Answer × Store)) = .ok same :=
    fun done => ⟨done, rfl⟩
  cases operation with
  | new self => exact ok_ne_refused
  | add self position child =>
    exact (checked_bind_eq_refused_iff fun _ => takesPlace _).trans Fragment.insert_eq_error_iff
  | remove self position target =>
    exact (checked_bind_eq_refused_iff fun _ => takesPlace _).trans Fragment.remove_eq_error_iff
  | assembleIf self condition body =>
    exact (checked_bind_eq_refused_iff fun _ => takesPlace _).trans Fragment.ifThen_eq_error_iff
  | assembleIfElse self condition thenBody elseBody =>
    exact (checked_bind_eq_refused_iff fun _ => takesPlace _).trans Fragment.ifElse_eq_error_iff
  | assembleWhile self condition body =>
    exact (checked_bind_eq_refused_iff fun _ => takesPlace _).trans Fragment.whileDo_eq_error_iff
  | assembleCall self name =>
    exact (checked_bind_eq_refused_iff fun _ => takesPlace _).trans Fragment.call_eq_error_iff
  | disassembleIf self body =>
    exact (checked_bind_eq_refused_iff fun _ => takesPlace _).trans
      Fragment.takeIfThen_eq_error_iff
  | disassembleIfElse self thenBody elseBody =>
    exact (checked_bind_eq_refused_iff fun _ => takesPlace _).trans
      Fragment.takeIfElse_eq_error_iff
  | disassembleWhile self body =>
    exact (checked_bind_eq_refused_iff fun _ => takesPlace _).trans
      Fragment.takeWhileDo_eq_error_iff
  | disassembleCall self =>
    exact (checked_bind_eq_refused_iff fun _ => takesPlace _).trans Fragment.takeCall_eq_error_iff
  | transfer self source => exact ok_ne_refused
  | clone self source => exact ok_ne_refused
  | parse self form text =>
    exact (parsed_bind_ne_refused fun _ => takesPlace _).trans firstUnmet_nil_iff.symm
  | newProgram self name =>
    exact (checked_bind_eq_refused_iff fun _ => takesPlace _).trans Program.new_eq_error_iff
  | parseProgram self text =>
    exact (parsed_bind_ne_refused fun _ => takesPlace _).trans firstUnmet_nil_iff.symm
  | define self name body =>
    refine program_bind_eq_refused_iff (fun missing => by simp [requirements, missing]) ?_
    intro program held
    simp only [requirements, held]
    exact (checked_bind_eq_refused_iff fun _ => takesPlace _).trans program.define_eq_error_iff
  | undefine self name target =>
    refine program_bind_eq_refused_iff (fun _ => rfl) fun program _ => ?_
    cases program.instruction? name with
    | none => exact ok_ne_refused
    | some body => exact ok_ne_refused
  | swapBody self body =>
    refine program_bind_eq_refused_iff (fun missing => by simp [requirements, missing]) ?_
    intro program held
    simp only [requirements, held]
    exact (checked_bind_eq_refused_iff fun _ => takesPlace _).trans program.swapBody_eq_error_iff
  | cloneProgram self copy =>
    exact program_bind_eq_refused_iff (fun _ => rfl) fun _ _ => ok_ne_refused

/-- Step by step an operation fails as it does in one go, and has moved nothing by then. In
particular nothing is missing from a node that has been taken out of its slot. -/
theorem run_moves_eq_error_iff {operation : Operation} {failure : Forest.Failure} {left : Forest} :
    (Forest.moves operation).run store.forest = .error failure left ↔
      left = store.forest ∧ ∃ known, failure = .known known ∧
        store.perform operation = .error known := by
  have ends := Forest.run_moves store.forest operation
  rw [Forest.perform_forest] at ends
  generalize (Forest.moves operation).run store.forest = result at ends ⊢
  cases performed : store.perform operation with
  | ok done =>
    rw [performed] at ends
    obtain ⟨_⟩ := ends
    simp
  | error known =>
    rw [performed] at ends
    obtain _ | _ := ends
    constructor
    · rintro ⟨⟩
      exact ⟨rfl, known, rfl, rfl⟩
    · rintro ⟨rfl, _, rfl, same⟩
      cases same
      rfl

/-- **A refused operation changes nothing, and is refused for its first requirement not met.**
Step by step, it is refused exactly if it requires something that does not hold; the refusal is that
of the first such requirement, and every slot is as it was. No failure at all leaves a trace. -/
theorem refused_unchanged (store : Store) (operation : Operation) :
    ((∃ refusal left, (Forest.moves operation).run store.forest =
        .error (.known (.refused refusal)) left) ↔
      ∃ requirement ∈ store.requirements operation, requirement.met = false) ∧
    (∀ refusal left, (Forest.moves operation).run store.forest =
        .error (.known (.refused refusal)) left ↔
      FirstUnmet (store.requirements operation) refusal ∧ left = store.forest) ∧
    (∀ refusal, store.perform operation = .error (.refused refusal) ↔
      FirstUnmet (store.requirements operation) refusal) ∧
    (∀ failure left, (Forest.moves operation).run store.forest = .error failure left →
      left = store.forest ∧ store.after operation = store) ∧
    (∀ slot refusal, (store.fragments slot).length = .error refusal ↔
      FirstUnmet [ofKind .block (store.fragments slot)] refusal) := by
  have steps : ∀ refusal left, (Forest.moves operation).run store.forest =
      .error (.known (.refused refusal)) left ↔
      FirstUnmet (store.requirements operation) refusal ∧ left = store.forest := by
    intro refusal left
    rw [run_moves_eq_error_iff, ← perform_eq_refused_iff]
    constructor
    · rintro ⟨rfl, known, same, failed⟩
      cases same
      exact ⟨failed, rfl⟩
    · rintro ⟨failed, rfl⟩
      exact ⟨rfl, _, rfl, failed⟩
  refine ⟨?_, steps, fun _ => perform_eq_refused_iff, ?_, fun _ _ => Fragment.length_eq_error_iff⟩
  · rw [← exists_firstUnmet_iff]
    refine exists_congr fun refusal => ⟨?_, fun first => ⟨_, (steps _ _).mpr ⟨first, rfl⟩⟩⟩
    rintro ⟨left, ran⟩
    exact ((steps _ _).mp ran).1
  · intro failure left ran
    obtain ⟨same, known, _, failed⟩ := run_moves_eq_error_iff.mp ran
    exact ⟨same, by rw [after, failed]⟩

/-- A statement where the second body should be refuses the IF, and the first body stays. -/
theorem refused_unchanged_secondBody :
    let call : Fragment := .statement (.call ⟨"move", by decide⟩)
    let store := (fresh.put "then" (.block [.call ⟨"skip", by decide⟩])).put "else" call
    (Forest.moves (.assembleIfElse "self" .random "then" "else")).run store.forest =
        .error (.known (.refused (.wrongKind .block .call))) store.forest ∧
      store.after (.assembleIfElse "self" .random "then" "else") = store := by
  intro call store
  have ran : (Forest.moves (.assembleIfElse "self" .random "then" "else")).run store.forest =
      .error (.known (.refused (.wrongKind .block .call))) store.forest :=
    ((refused_unchanged store _).2.1 _ _).mpr
      ⟨⟨[ofKind .block (store.fragments "then")], [], rfl, by decide⟩, rfl⟩
  exact ⟨ran, ((refused_unchanged store _).2.2.2.1 _ _ ran).2⟩

end Store

end BlockLanguage
