/-
**Operations as checks and moves.**

Made in one go, an operation on a forest changes all its slots or none. Here it is made step by
step, in the order in which it looks at its slots: a check lets it go on or ends it where it stands,
and a move takes a tree out of a slot or puts one into a slot. Nothing is undone. A check behind a
move would leave a forest in which trees are missing; there are such checks, of what a node taken
out of its slot consists of, and of a place in a block for a tree that has been taken out of its
slot.

* `Moves`, `take`, `demand`: steps, and the two kinds of them.
* `moves`: every operation, step by step.
* `run_moves`: the steps of an operation come to what it comes to in one go.
-/

import BlockLanguage.Proofs.Forest

namespace BlockLanguage

/-! ### The slots of an operation -/

namespace Store.Operation

/-- The slots with fragments that an operation names. -/
def slots : Operation → List String
  | .new self | .assembleCall self _ | .disassembleCall self | .parse self _ _ => [self]
  | .add self _ child => [self, child]
  | .remove self _ target => [self, target]
  | .assembleIf self _ body | .assembleWhile self _ body => [self, body]
  | .assembleIfElse self _ thenBody elseBody => [self, thenBody, elseBody]
  | .disassembleIf self body | .disassembleWhile self body => [self, body]
  | .disassembleIfElse self thenBody elseBody => [self, thenBody, elseBody]
  | .transfer self source | .clone self source => [self, source]
  | .define _ _ body | .swapBody _ body => [body]
  | .undefine _ _ target => [target]
  | .newProgram _ _ | .parseProgram _ _ | .cloneProgram _ _ => []

end Store.Operation

namespace Forest

/-- Steps on a forest. A step that fails leaves the forest as the steps before it have made it. -/
abbrev Moves := EStateM Failure Forest

namespace Moves

/-! ### Checks -/

/-- The tree in a slot, which stays there. -/
def look (slot : String) : Moves Tree := return (← get).trees slot

/-- The outline in a slot, which stays there. -/
def lookProgram (slot : String) : Moves Outline := do
  match (← get).programs slot with
  | some program => return program
  | none => throw (.known .noProgram)

/-- Ends an operation with a refusal if a check does not hold. -/
def demand (holds : Prop) [Decidable holds] (refusal : Refusal) : Moves Unit :=
  if holds then return () else throw (.known (.refused refusal))

/-- Checks that the tree in a slot is of a kind. -/
def demandKind (slot : String) (expected : Kind) : Moves Unit := do
  let found := (← look slot).kind
  demand (found = expected) (.wrongKind expected found)

/-- The number of statements of the block in a slot. -/
def length (slot : String) : Moves Nat := do
  demandKind slot .block
  return (← look slot).children.length

/-- What a parse gives. -/
def reading {α : Type} : Except ParseError α → Moves α
  | .ok value => return value
  | .error error => throw (.known (.unparsable error))

/-! ### Moves -/

/-- Puts a tree into a slot. -/
def write (slot : String) (tree : Tree) : Moves Unit := modify fun forest => forest.put slot tree

/-- Puts an outline into a slot. -/
def writeProgram (slot : String) (program : Outline) : Moves Unit :=
  modify fun forest => forest.putProgram slot program

/-- Takes the tree out of a slot and leaves the empty block there. -/
def take (slot : String) : Moves Tree := do
  let tree ← look slot
  write slot .empty
  return tree

/-- Puts a tree among the children of the node in a slot. That there is no place for it shows only
when it has been taken out of its own slot. -/
def insertAt (self : String) (position : Nat) (child : String) (tree : Tree) : Moves Unit := do
  let node ← look self
  if position ≤ node.children.length then
    write self (.node node.label
      (node.children.take position ++ tree :: node.children.drop position))
  else throw (.torn child)

/-- Takes a tree out of the children of the node in a slot. -/
def removeAt (self : String) (position : Nat) : Moves Tree := do
  let node ← look self
  match node.children[position]? with
  | some removed =>
    write self (.node node.label (node.children.eraseIdx position))
    return removed
  | none => throw (.torn self)

/-- Gives the node in a slot another label. -/
def relabel (self : String) (label : Label) : Moves Unit := do
  write self (.node label (← look self).children)

/-- Gives the node in a slot other children. -/
def refill (self : String) (children : List Tree) : Moves Unit := do
  write self (.node (← look self).label children)

/-! ### Operations -/

/-- Makes the node in a slot one with a label over the bodies in other slots. -/
def assemble (self : String) (label : Label) (bodies : List String) : Moves Unit := do
  forM bodies fun body => demandKind body .block
  relabel self label
  refill self (← bodies.mapM take)

/-- Takes the node of a kind out of its slot, and its label and its children apart. -/
def takeParts (self : String) (expected : Kind) : Moves (Condition × List Tree) := do
  demandKind self expected
  let node ← take self
  match node.label.condition? with
  | some condition => return (condition, node.children)
  | none => throw (.torn self)

/-- Moves the body of an IF or a WHILE into another slot. -/
def disassemble (self : String) (expected : Kind) (body : String) : Moves Condition := do
  match ← takeParts self expected with
  | (condition, part :: _) =>
    write body part
    return condition
  | (_, []) => throw (.torn self)

end Moves

open Moves

/-- The steps of an operation. -/
def moves : Store.Operation → Moves Answer
  | .new self => do
    write self .empty
    return .done
  | .add self position child => do
    let length ← length self
    demand ((← look child).kind ≠ .block) .blockInBlock
    demand (position ≤ length) (.noPlace position length)
    insertAt self position child (← take child)
    return .done
  | .remove self position target => do
    let length ← length self
    demand (position < length) (.noStatement position length)
    write target (← removeAt self position)
    return .done
  | .assembleIf self condition body => do
    assemble self (.ifThen condition) [body]
    return .done
  | .assembleIfElse self condition thenBody elseBody => do
    assemble self (.ifElse condition) [thenBody, elseBody]
    return .done
  | .assembleWhile self condition body => do
    assemble self (.whileDo condition) [body]
    return .done
  | .assembleCall self name => do
    demand (Word.isIdentifier name) (.calledName name)
    relabel self (.call name)
    refill self []
    return .done
  | .disassembleIf self body => return .condition (← disassemble self .ifThen body)
  | .disassembleIfElse self thenBody elseBody => do
    let (condition, parts) ← takeParts self .ifElse
    write thenBody (parts.getD 0 .empty)
    write elseBody (parts.getD 1 .empty)
    return .condition condition
  | .disassembleWhile self body => return .condition (← disassemble self .whileDo body)
  | .disassembleCall self => do
    demandKind self .call
    match (← take self).label.instruction? with
    | some name => return .name name
    | none => throw (.torn self)
  | .transfer self source => do
    write self (← take source)
    return .done
  | .clone self source => do
    write self (← look source)
    return .done
  | .parse self form text => do
    write self (← reading (Fragment.parse form {} (tokenize text))).tree
    return .done
  | .newProgram self name => do
    demand (Word.isIdentifier name) (.programName name)
    writeProgram self ⟨name, fun _ => none, .empty⟩
    return .done
  | .parseProgram self text => do
    writeProgram self (← reading (Program.parse {} (tokenize text))).outline
    return .done
  | .define self name body => do
    let program ← lookProgram self
    demand (Word.isIdentifier name) (.definedName name)
    demand ((← look body).kind = .block) (.definedBody name)
    demand (¬ Word.isPrimitive name) (.reserved name)
    demand (¬ (program.context name).isSome) (.duplicate name)
    let moved ← take body
    writeProgram self { program with
      context := fun asked => if name = asked then some moved else program.context asked }
    return .done
  | .undefine self name target => do
    let program ← lookProgram self
    match program.context name with
    | none => return .truth false
    | some body =>
      writeProgram self (program.undefine name)
      write target body
      return .truth true
  | .swapBody self body => do
    let program ← lookProgram self
    demand ((← look body).kind = .block) .programBody
    writeProgram self { program with body := ← take body }
    write body program.body
    return .done
  | .cloneProgram self copy => do
    writeProgram copy (← lookProgram self)
    return .done

/-! ### Slots one by one -/

section Slots

variable {forest : Forest} {here other : String} {tree : Tree}

theorem trees_put (forest : Forest) (here : String) (tree : Tree) :
    (forest.put here tree).trees here = tree := if_pos rfl

theorem trees_put_of_ne (apart : other ≠ here) :
    (forest.put here tree).trees other = forest.trees other := if_neg apart

/-- What is put into a slot takes the place of what was put there before. -/
theorem put_put (forest : Forest) (here : String) (first second : Tree) :
    (forest.put here first).put here second = forest.put here second := by
  unfold put
  congr 1
  funext asked
  by_cases same : asked = here
  · simp [same]
  · simp [same]

/-- Different slots may be filled in any order. -/
theorem put_comm (apart : other ≠ here) (first second : Tree) :
    (forest.put here first).put other second = (forest.put other second).put here first := by
  unfold put
  congr 1
  funext asked
  by_cases same : asked = here
  · simp [same, apart.symm]
  · simp [same]

theorem trees_clearAll {slots : List String} (apart : here ∉ slots) (forest : Forest) :
    (slots.foldl clear forest).trees here = forest.trees here := by
  induction slots generalizing forest with
  | nil => rfl
  | cons first more ih =>
    have ne := List.ne_of_not_mem_cons apart
    have apart := List.not_mem_of_not_mem_cons apart
    rw [List.foldl_cons, ih apart]
    exact trees_put_of_ne ne

theorem clearAll_put {slots : List String} (apart : here ∉ slots) (forest : Forest) (tree : Tree) :
    slots.foldl clear (forest.put here tree) = (slots.foldl clear forest).put here tree := by
  induction slots generalizing forest with
  | nil => rfl
  | cons first more ih =>
    have ne := List.ne_of_not_mem_cons apart
    have apart := List.not_mem_of_not_mem_cons apart
    rw [List.foldl_cons, List.foldl_cons, ← ih apart]
    exact congrArg (more.foldl clear) (put_comm (Ne.symm ne) _ _)

end Slots

/-! ### Single steps -/

section Steps

variable {β : Type} (forest : Forest)

theorem run_look (slot : String) (next : Tree → Moves β) :
    (look slot >>= next).run forest = (next (forest.trees slot)).run forest := rfl

theorem run_take (slot : String) (next : Tree → Moves β) :
    (take slot >>= next).run forest = (next (forest.trees slot)).run (forest.clear slot) := rfl

theorem run_demand (holds : Prop) [Decidable holds] (refusal : Refusal) (next : Unit → Moves β) :
    (demand holds refusal >>= next).run forest =
      if holds then (next ()).run forest else .error (.known (.refused refusal)) forest := by
  unfold demand
  split <;> rfl

theorem run_demandKind (slot : String) (expected : Kind) (next : Unit → Moves β) :
    (demandKind slot expected >>= next).run forest =
      if (forest.trees slot).kind = expected then (next ()).run forest
      else .error (.known (.refused (.wrongKind expected (forest.trees slot).kind))) forest :=
  run_demand forest _ _ next

theorem run_length (slot : String) (next : Nat → Moves β) :
    (length slot >>= next).run forest =
      if (forest.trees slot).kind = .block then
        (next (forest.trees slot).children.length).run forest
      else .error (.known (.refused (.wrongKind .block (forest.trees slot).kind))) forest := by
  unfold length
  rw [bind_assoc, run_demandKind]
  rfl

theorem run_insertAt (self : String) (position : Nat) (child : String) (tree : Tree)
    (next : Unit → Moves β) :
    (insertAt self position child tree >>= next).run forest =
      if position ≤ (forest.trees self).children.length then
        (next ()).run (forest.put self (.node (forest.trees self).label
          ((forest.trees self).children.take position ++ tree ::
            (forest.trees self).children.drop position)))
      else .error (.torn child) forest := by
  unfold insertAt
  rw [bind_assoc, run_look]
  split <;> rfl

theorem run_removeAt (self : String) (position : Nat) (next : Tree → Moves β) :
    (removeAt self position >>= next).run forest =
      match (forest.trees self).children[position]? with
      | some removed => (next removed).run (forest.put self (.node (forest.trees self).label
          ((forest.trees self).children.eraseIdx position)))
      | none => .error (.torn self) forest := by
  unfold removeAt
  rw [bind_assoc, run_look]
  cases (forest.trees self).children[position]? <;> rfl

theorem run_takeParts (self : String) (expected : Kind) (next : Condition × List Tree → Moves β) :
    (takeParts self expected >>= next).run forest =
      if (forest.trees self).kind = expected then
        match (forest.trees self).label.condition? with
        | some condition =>
          (next (condition, (forest.trees self).children)).run (forest.clear self)
        | none => .error (.torn self) (forest.clear self)
      else .error (.known (.refused (.wrongKind expected (forest.trees self).kind))) forest := by
  unfold takeParts
  rw [bind_assoc, run_demandKind, bind_assoc, run_take]
  cases (forest.trees self).label.condition? <;> rfl

end Steps

/-! ### Step by step as in one go -/

/-- Steps come to what an operation on a forest comes to in one go. If they fail, they leave the
forest as it was, or with one tree missing; if they do not, they leave the same forest, provided
that the operation names different slots. -/
inductive Ends (forest : Forest) (separate : Prop) :
    Except Failure (Answer × Forest) → EStateM.Result Failure Forest Answer → Prop
  | ok {answer : Answer} {made left : Forest} (same : separate → left = made) :
    Ends forest separate (.ok (answer, made)) (.ok answer left)
  | failed {failure : Store.Failure} :
    Ends forest separate (.error (.known failure)) (.error (.known failure) forest)
  | torn {self : String} :
    Ends forest separate (.error (.torn self)) (.error (.torn self) (forest.clear self))

section Ends

variable {forest : Forest} {separate : Prop} {made : Except Failure (Answer × Forest)}

/-- A check lets both go on, or both fail. -/
theorem Ends.ite {holds : Prop} [Decidable holds] {failure : Store.Failure}
    {result : EStateM.Result Failure Forest Answer} (met : holds → Ends forest separate made result)
    (unmet : ¬ holds → made = .error (.known failure)) :
    Ends forest separate made (if holds then result else .error (.known failure) forest) := by
  split
  · next check => exact met check
  · next check =>
    rw [unmet check]
    exact .failed

end Ends

variable (forest : Forest)

theorem ends_add (self : String) (position : Nat) (child : String) :
    Ends forest [self, child].Nodup (forest.perform (.add self position child))
      ((moves (.add self position child)).run forest) := by
  simp only [perform, moves, Tree.insert, Tree.require]
  rw [run_length]
  refine .ite (fun block => ?_) fun other => by rw [if_neg other]; rfl
  rw [if_pos block, run_look, run_demand]
  refine .ite (fun noBlock => ?_) fun isBlock => by rw [if_pos (Decidable.not_not.mp isBlock)]; rfl
  rw [if_neg noBlock, run_demand]
  refine .ite (fun inside => ?_) fun outside => by rw [if_neg outside]; rfl
  have apart : self ≠ child := fun same => noBlock (same ▸ block)
  have kept : (forest.clear child).trees self = forest.trees self := trees_put_of_ne apart
  rw [if_pos inside, run_take, run_insertAt, kept, if_pos inside]
  exact .ok fun _ => rfl

theorem ends_remove (self : String) (position : Nat) (target : String) :
    Ends forest [self, target].Nodup (forest.perform (.remove self position target))
      ((moves (.remove self position target)).run forest) := by
  simp only [perform, moves, Tree.remove, Tree.require]
  rw [run_length]
  refine .ite (fun block => ?_) fun other => by rw [if_neg other]; rfl
  rw [if_pos block, run_demand]
  refine .ite (fun inside => ?_) fun outside => ?_
  · rw [run_removeAt, List.getElem?_eq_getElem inside]
    exact .ok fun _ => rfl
  · rw [List.getElem?_eq_none (Nat.le_of_not_lt outside)]
    rfl

/-- All that is handed in is checked before anything is taken. -/
theorem run_demandKinds (bodies : List String) (next : Unit → Moves Answer) :
    ((forM bodies fun body => demandKind body .block) >>= next).run forest =
      match (forM (bodies.map forest.trees) fun body => body.require .block :
          Except Refusal Unit) with
      | .ok () => (next ()).run forest
      | .error refusal => .error (.known (.refused refusal)) forest := by
  induction bodies with
  | nil => rfl
  | cons body more ih =>
    rw [List.forM_cons, bind_assoc, run_demandKind, List.map_cons, List.forM_cons, Tree.require]
    split
    · exact ih
    · rfl

theorem run_takes {bodies : List String} (separate : bodies.Nodup)
    (next : List Tree → Moves Answer) :
    (bodies.mapM take >>= next).run forest =
      (next (bodies.map forest.trees)).run (bodies.foldl clear forest) := by
  induction bodies generalizing forest next with
  | nil => rfl
  | cons body more ih =>
    obtain ⟨apart, separate⟩ := List.nodup_cons.mp separate
    have same : more.map (forest.clear body).trees = more.map forest.trees :=
      List.map_congr_left fun slot member => trees_put_of_ne fun eq => apart (eq ▸ member)
    rw [List.mapM_cons, bind_assoc, run_take]
    simp only [bind_assoc]
    rw [ih _ separate, same]
    rfl

/-- Whatever slots are named, taking trees out of them does not fail. -/
theorem exists_run_takes (bodies : List String) (next : List Tree → Moves Answer) :
    ∃ parts left, (bodies.mapM take >>= next).run forest = (next parts).run left := by
  induction bodies generalizing forest next with
  | nil => exact ⟨[], forest, rfl⟩
  | cons body more ih =>
    rw [List.mapM_cons, bind_assoc, run_take]
    simp only [bind_assoc]
    obtain ⟨parts, left, eq⟩ :=
      ih (forest.clear body) fun parts => next (forest.trees body :: parts)
    exact ⟨forest.trees body :: parts, left, eq⟩

theorem ends_assemble (self : String) (label : Label) (bodies : List String) :
    Ends forest (self :: bodies).Nodup
      (do
        let made ← checked (Tree.assemble label (bodies.map forest.trees))
        return (.done, (bodies.foldl clear forest).put self made))
      ((do
        assemble self label bodies
        return .done : Moves Answer).run forest) := by
  unfold assemble Tree.assemble
  rw [bind_assoc, run_demandKinds]
  generalize (forM (bodies.map forest.trees) fun body => body.require .block :
    Except Refusal Unit) = required
  cases required with
  | error refusal => exact .failed
  | ok =>
    let relabelled := forest.put self (.node label (forest.trees self).children)
    show Ends forest _ _
      (((bodies.mapM take >>= refill self) >>= fun _ => pure .done).run relabelled)
    rw [bind_assoc]
    by_cases separate : (self :: bodies).Nodup
    · obtain ⟨apart, different⟩ := List.nodup_cons.mp separate
      have parts : bodies.map relabelled.trees = bodies.map forest.trees :=
        List.map_congr_left fun slot member => trees_put_of_ne fun eq => apart (eq ▸ member)
      have node : (bodies.foldl clear relabelled).trees self =
          .node label (forest.trees self).children :=
        (trees_clearAll apart relabelled).trans (trees_put forest self _)
      rw [run_takes _ different, parts]
      refine .ok fun _ => ?_
      show (bodies.foldl clear relabelled).put self
        (.node ((bodies.foldl clear relabelled).trees self).label _) = _
      rw [node, clearAll_put apart, put_put]
      rfl
    · obtain ⟨parts, left, taken⟩ := exists_run_takes relabelled bodies fun parts =>
        refill self parts >>= fun _ => pure Answer.done
      rw [taken]
      exact .ok fun different => absurd different separate

theorem ends_disassemble (self : String) (expected : Kind) (body : String) :
    Ends forest [self, body].Nodup (forest.takeBody expected self body)
      ((do return .condition (← disassemble self expected body) : Moves Answer).run forest) := by
  unfold takeBody disassemble Tree.takeParts Tree.require
  rw [bind_assoc, run_takeParts]
  refine .ite (fun isKind => ?_) fun other => by rw [if_neg other]; rfl
  rw [if_pos isKind]
  cases (forest.trees self).label.condition? with
  | none => exact .torn
  | some condition =>
    cases (forest.trees self).children with
    | nil => exact .torn
    | cons part more => exact .ok fun _ => rfl

theorem ends_disassembleIfElse (self thenBody elseBody : String) :
    Ends forest [self, thenBody, elseBody].Nodup
      (forest.perform (.disassembleIfElse self thenBody elseBody))
      ((moves (.disassembleIfElse self thenBody elseBody)).run forest) := by
  simp only [perform, moves, Tree.takeParts, Tree.require]
  rw [run_takeParts]
  refine .ite (fun isKind => ?_) fun other => by rw [if_neg other]; rfl
  rw [if_pos isKind]
  cases (forest.trees self).label.condition? with
  | none => exact .torn
  | some condition => exact .ok fun _ => rfl

theorem ends_disassembleCall (self : String) :
    Ends forest [self].Nodup (forest.perform (.disassembleCall self))
      ((moves (.disassembleCall self)).run forest) := by
  simp only [perform, moves, Tree.takeName, Tree.require]
  rw [run_demandKind]
  refine .ite (fun isKind => ?_) fun other => by rw [if_neg other]; rfl
  rw [if_pos isKind, run_take]
  cases (forest.trees self).label.instruction? with
  | none => exact .torn
  | some name => exact .ok fun _ => rfl

theorem ends_assembleCall (self name : String) :
    Ends forest [self].Nodup (forest.perform (.assembleCall self name))
      ((moves (.assembleCall self name)).run forest) := by
  simp only [perform, moves, Tree.call]
  rw [run_demand]
  refine .ite (fun valid => ?_) fun invalid => by rw [if_neg invalid]; rfl
  rw [if_pos valid]
  refine .ok fun _ => ?_
  show (forest.put self _).put self (.node ((forest.put self _).trees self).label []) = _
  rw [trees_put, put_put]
  rfl

/-! ### Programs -/

theorem run_lookProgram (slot : String) (next : Outline → Moves Answer) :
    (lookProgram slot >>= next).run forest =
      match forest.programs slot with
      | some program => (next program).run forest
      | none => .error (.known .noProgram) forest := by
  unfold lookProgram
  rw [bind_assoc]
  show (((match forest.programs slot with
    | some program => pure program
    | none => throw (.known .noProgram)) : Moves Outline) >>= next).run forest = _
  cases forest.programs slot <;> rfl

theorem ends_newProgram (separate : Prop) (self name : String) :
    Ends forest separate (forest.perform (.newProgram self name))
      ((moves (.newProgram self name)).run forest) := by
  simp only [perform, moves, Outline.new]
  rw [run_demand]
  refine .ite (fun valid => ?_) fun invalid => by rw [if_neg invalid]; rfl
  rw [if_pos valid]
  exact .ok fun _ => rfl

theorem ends_define (self name body : String) :
    Ends forest [body].Nodup (forest.perform (.define self name body))
      ((moves (.define self name body)).run forest) := by
  simp only [perform, moves, program]
  rw [run_lookProgram]
  cases forest.programs self with
  | none => exact .failed
  | some before =>
    show Ends forest _ (checked (before.define name (forest.trees body)) >>= _)
      ((demand _ _ >>= _).run forest)
    unfold Outline.define
    rw [run_demand]
    refine .ite (fun valid => ?_) fun invalid => by rw [if_pos (eq_false_of_ne_true invalid)]; rfl
    rw [if_neg (ne_false_of_eq_true valid), run_look, run_demand]
    refine .ite (fun block => ?_) fun other => by rw [if_pos other]; rfl
    rw [if_neg (not_not_intro block), run_demand]
    refine .ite (fun free => ?_) fun reserved => ?_
    · rw [if_neg free, run_demand]
      refine .ite (fun fresh => ?_) fun taken => ?_
      · rw [if_neg fresh]
        exact .ok fun _ => rfl
      · rw [if_pos (Decidable.not_not.mp taken)]
        rfl
    · rw [if_pos (Decidable.not_not.mp reserved)]
      rfl

theorem ends_undefine (self name target : String) :
    Ends forest [target].Nodup (forest.perform (.undefine self name target))
      ((moves (.undefine self name target)).run forest) := by
  simp only [perform, moves, program]
  rw [run_lookProgram]
  cases forest.programs self with
  | none => exact .failed
  | some before =>
    show Ends forest _ (match before.context name with
      | none => .ok (.truth false, forest)
      | some body =>
        .ok (.truth true, (forest.putProgram self (before.undefine name)).put target body)) _
    dsimp only
    cases before.context name with
    | none => exact .ok fun _ => rfl
    | some body => exact .ok fun _ => rfl

theorem ends_swapBody (self body : String) :
    Ends forest [body].Nodup (forest.perform (.swapBody self body))
      ((moves (.swapBody self body)).run forest) := by
  simp only [perform, moves, program]
  rw [run_lookProgram]
  cases forest.programs self with
  | none => exact .failed
  | some before =>
    show Ends forest _ (checked (before.swapBody (forest.trees body)) >>= _)
      ((demand _ _ >>= _).run forest)
    unfold Outline.swapBody
    rw [run_demand]
    refine .ite (fun block => ?_) fun other => by rw [if_neg other]; rfl
    rw [if_pos block, run_take]
    refine .ok fun _ => ?_
    exact put_put (forest.putProgram self { before with body := forest.trees body }) body .empty
      before.body

theorem ends_cloneProgram (separate : Prop) (self copy : String) :
    Ends forest separate (forest.perform (.cloneProgram self copy))
      ((moves (.cloneProgram self copy)).run forest) := by
  simp only [perform, moves, program]
  rw [run_lookProgram]
  cases forest.programs self with
  | none => exact .failed
  | some before => exact .ok fun _ => rfl

/-- **An operation comes to the same step by step and in one go.** -/
theorem run_moves (operation : Store.Operation) :
    Ends forest operation.slots.Nodup (forest.perform operation)
      ((moves operation).run forest) := by
  cases operation with
  | new self => exact .ok fun _ => rfl
  | add self position child => exact ends_add forest self position child
  | remove self position target => exact ends_remove forest self position target
  | assembleIf self condition body => exact ends_assemble forest self (.ifThen condition) [body]
  | assembleIfElse self condition thenBody elseBody =>
    exact ends_assemble forest self (.ifElse condition) [thenBody, elseBody]
  | assembleWhile self condition body =>
    exact ends_assemble forest self (.whileDo condition) [body]
  | assembleCall self name => exact ends_assembleCall forest self name
  | disassembleIf self body => exact ends_disassemble forest self .ifThen body
  | disassembleIfElse self thenBody elseBody =>
    exact ends_disassembleIfElse forest self thenBody elseBody
  | disassembleWhile self body => exact ends_disassemble forest self .whileDo body
  | disassembleCall self => exact ends_disassembleCall forest self
  | transfer self source => exact .ok fun _ => rfl
  | clone self source => exact .ok fun _ => rfl
  | parse self form text =>
    simp only [perform, moves]
    cases Fragment.parse form {} (tokenize text) with
    | ok fragment => exact .ok fun _ => rfl
    | error error => exact .failed
  | newProgram self name => exact ends_newProgram forest _ self name
  | parseProgram self text =>
    simp only [perform, moves]
    cases Program.parse {} (tokenize text) with
    | ok program => exact .ok fun _ => rfl
    | error error => exact .failed
  | define self name body => exact ends_define forest self name body
  | undefine self name target => exact ends_undefine forest self name target
  | swapBody self body => exact ends_swapBody forest self body
  | cloneProgram self copy => exact ends_cloneProgram forest _ self copy

end Forest

end BlockLanguage
