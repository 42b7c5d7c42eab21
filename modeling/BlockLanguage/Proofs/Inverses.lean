/-
**Operations that undo one another.**

What has been assembled can be disassembled into any slots: they get the bodies that were handed in,
in order, and the answer is the condition or the name. What has been disassembled can be assembled
again from the slots with its parts. A statement that is put into a block and removed from the same
position, or the other way round, leaves the block as it was, and two statements may be put in in
either order. All of it is so step by step as well: a node that is taken apart never lacks a part.

* `Statement.bodies`, `Statement.ext_bodies`: a statement is its label and its bodies.
* `Assembles.perform`, `Disassembles.perform`: what the eight operations do, stated once.
* `disassemble_assemble`, `assemble_disassemble`: the two ways round.
* `remove_add`, `add_remove`, `add_add`: positions in a block.
* `perform_inverts`: all of it together.
-/

import BlockLanguage.Proofs.Moves
import Mathlib.Data.List.InsertIdx

namespace BlockLanguage

/-! ### A statement is its label and its bodies -/

/-- The blocks directly below a statement, in order. -/
def Statement.bodies : Statement → List Block
  | .ifThen _ body | .whileDo _ body => [body]
  | .ifElse _ thenBody elseBody => [thenBody, elseBody]
  | .call _ => []

/-- Statements with the same label over the same bodies are equal. -/
theorem Statement.ext_bodies {first second : Statement}
    (label : first.tree.label = second.tree.label) (bodies : first.bodies = second.bodies) :
    first = second := by
  cases first <;> cases second <;> simp_all [Statement.tree, Tree.label, Statement.bodies]
  next name name' => exact Identifier.ext label

namespace Store

/-! ### Several slots at once -/

/-- The store with fragments in slots, the first one in the first slot and so on. -/
def fill (store : Store) : List String → List Fragment → Store
  | slot :: slots, fragment :: fragments => (store.put slot fragment).fill slots fragments
  | _, _ => store

section Slots

variable {store : Store} {slots : List String} {fragments : List Fragment} {slot : String}

theorem fragments_fill_of_notMem (other : slot ∉ slots) :
    (store.fill slots fragments).fragments slot = store.fragments slot := by
  induction slots generalizing store fragments with
  | nil => rfl
  | cons first more ih =>
    cases fragments with
    | nil => rfl
    | cons fragment others =>
      rw [List.mem_cons, not_or] at other
      rw [fill, ih other.2, fragments_put_of_ne store other.1]

/-- Slots that are filled with as many fragments hold them. -/
theorem map_fragments_fill (separate : slots.Nodup) (enough : slots.length = fragments.length) :
    slots.map (store.fill slots fragments).fragments = fragments := by
  induction slots generalizing store fragments with
  | nil => exact (List.eq_nil_of_length_eq_zero enough.symm).symm
  | cons first more ih =>
    obtain ⟨apart, separate⟩ := List.nodup_cons.mp separate
    cases fragments with
    | nil => cases enough
    | cons fragment others =>
      rw [fill, List.map_cons, fragments_fill_of_notMem apart, fragments_put,
        ih separate (Nat.succ.inj enough)]

@[simp] theorem programs_fill (store : Store) (slots : List String) (fragments : List Fragment) :
    (store.fill slots fragments).programs = store.programs := by
  induction slots generalizing store fragments with
  | nil => rfl
  | cons first more ih =>
    cases fragments with
    | nil => rfl
    | cons fragment others => exact ih _ _

/-- The store with the empty block in slots. -/
def clearAll (store : Store) (slots : List String) : Store := slots.foldl clear store

theorem fragments_clearAll (store : Store) (slots : List String) (slot : String) :
    (store.clearAll slots).fragments slot =
      if slot ∈ slots then .empty else store.fragments slot := by
  induction slots generalizing store with
  | nil => rfl
  | cons first more ih =>
    show ((store.clear first).clearAll more).fragments slot = _
    rw [ih]
    by_cases here : slot = first
    · simp [here]
    · simp [here, fragments_clear_of_ne]

@[simp] theorem programs_clearAll (store : Store) (slots : List String) :
    (store.clearAll slots).programs = store.programs := by
  induction slots generalizing store with
  | nil => rfl
  | cons first more ih => exact ih _

/-- Different slots may be filled in any order. -/
theorem put_comm (store : Store) {here other : String} (apart : other ≠ here)
    (first second : Fragment) :
    (store.put here first).put other second = (store.put other second).put here first := by
  unfold put
  congr 1
  funext asked
  by_cases same : asked = here
  · simp [same, apart.symm]
  · simp [same]

/-- What is put into a slot takes the place of what was put there before. -/
theorem put_clear_put (store : Store) (here other : String) (first second : Fragment) :
    ((store.put here first).clear other).put here second =
      (store.clear other).put here second := by
  unfold clear put
  congr 1
  funext asked
  by_cases same : asked = here
  · simp [same]
  · simp [same]

end Slots

/-- No program has changed, and no fragment outside some slots. -/
structure Untouched (slots : List String) (store behind : Store) : Prop where
  fragments : ∀ slot ∉ slots, behind.fragments slot = store.fragments slot
  programs : behind.programs = store.programs

/-! ### Operations that take place -/

/-- An operation takes place, in one go and step by step. -/
structure Takes (store : Store) (operation : Operation) (answer : Answer) (behind : Store) :
    Prop where
  performed : store.perform operation = .ok (answer, behind)
  moves : (Forest.moves operation).run store.forest = .ok (.ofStore answer) behind.forest

/-- What is given different slots and takes place does so step by step. -/
theorem Takes.of_performed {store behind : Store} {operation : Operation} {answer : Answer}
    (separate : operation.slots.Nodup)
    (performed : store.perform operation = .ok (answer, behind)) :
    store.Takes operation answer behind := by
  have steps := Forest.run_moves store.forest operation
  rw [Forest.perform_forest, performed] at steps
  generalize ran : (Forest.moves operation).run store.forest = result at steps
  obtain ⟨same⟩ := steps
  exact ⟨performed, by rw [ran, same separate]⟩

/-- An operation makes a node with a label in a slot, over the bodies in other slots. -/
inductive Assembles : Operation → String → Label → List String → Prop
  | ifThen (self : String) (condition : Condition) (body : String) :
    Assembles (.assembleIf self condition body) self (.ifThen condition) [body]
  | ifElse (self : String) (condition : Condition) (thenBody elseBody : String) :
    Assembles (.assembleIfElse self condition thenBody elseBody) self (.ifElse condition)
      [thenBody, elseBody]
  | whileDo (self : String) (condition : Condition) (body : String) :
    Assembles (.assembleWhile self condition body) self (.whileDo condition) [body]
  | call (self : String) (name : Identifier) :
    Assembles (.assembleCall self name.text) self (.call name.text) []

/-- An operation takes a node of a kind apart, its bodies into other slots. -/
inductive Disassembles : Operation → String → Kind → List String → Prop
  | ifThen (self body : String) : Disassembles (.disassembleIf self body) self .ifThen [body]
  | ifElse (self thenBody elseBody : String) :
    Disassembles (.disassembleIfElse self thenBody elseBody) self .ifElse [thenBody, elseBody]
  | whileDo (self body : String) : Disassembles (.disassembleWhile self body) self .whileDo [body]
  | call (self : String) : Disassembles (.disassembleCall self) self .call []

/-- An answer says what a label says. -/
def Answer.Tells (label : Label) : Answer → Prop
  | .condition tested => label.condition? = some tested
  | .name called => label.instruction? = some called.text
  | _ => False

/-- A statement at a position stands between those before and those behind it. -/
theorem insertIdx_eq_take_append_drop {statements : Block} {position : Nat} {s : Statement}
    (inside : position ≤ statements.length) :
    statements.insertIdx position s =
      statements.take position ++ s :: statements.drop position := by
  induction statements generalizing position with
  | nil => simp_all
  | cons first more ih =>
    cases position with
    | zero => rfl
    | succ before =>
      rw [List.insertIdx_succ_cons, ih (Nat.le_of_succ_le_succ inside)]
      rfl

section Perform

variable {store : Store} {make unmake : Operation} {self child target : String} {label : Label}
  {kind : Kind} {bodies targets : List String} {blocks : List Block} {s : Statement}
  {statements : Block} {position : Nat}

theorem Assembles.slots (assembles : Assembles make self label bodies) :
    make.slots = self :: bodies := by
  cases assembles <;> rfl

theorem Disassembles.slots (disassembles : Disassembles unmake self kind targets) :
    unmake.slots = self :: targets := by
  cases disassembles <;> rfl

/-- Slots whose fragments are of the kind of blocks hold blocks. -/
theorem exists_blocks (areBlocks : ∀ body ∈ bodies, (store.fragments body).kind = .block) :
    ∃ blocks : List Block, bodies.map store.fragments = blocks.map .block := by
  induction bodies with
  | nil => exact ⟨[], rfl⟩
  | cons body more ih =>
    rw [List.forall_mem_cons] at areBlocks
    obtain ⟨blocks, held⟩ := ih areBlocks.2
    have isBlock := areBlocks.1
    cases holds : store.fragments body with
    | block statements => exact ⟨statements :: blocks, by rw [List.map_cons, holds, held]; rfl⟩
    | statement s =>
      rw [holds] at isBlock
      exact absurd isBlock s.kind_tree_ne_block

/-- What can be taken apart is a statement. -/
theorem Disassembles.exists_statement (disassembles : Disassembles unmake self kind targets)
    (isKind : (store.fragments self).kind = kind) : ∃ s, store.fragments self = .statement s := by
  cases held : store.fragments self with
  | statement s => exact ⟨s, rfl⟩
  | block statements =>
    rw [held] at isKind
    cases disassembles <;> cases isKind

/-- Over slots with blocks, an operation that assembles makes the statement with its label and these
blocks. -/
theorem Assembles.perform (assembles : Assembles make self label bodies)
    (held : bodies.map store.fragments = blocks.map .block) :
    ∃ made : Statement, made.tree.label = label ∧ made.bodies = blocks ∧
      store.perform make = .ok (.done, (store.clearAll bodies).put self (.statement made)) := by
  cases assembles with
  | ifThen _ condition body =>
    obtain ⟨block, rfl, holds⟩ := List.map_eq_singleton_iff.mp held.symm
    refine ⟨.ifThen condition block, rfl, rfl, ?_⟩
    simp only [Store.perform, ← holds]
    rfl
  | ifElse _ condition thenBody elseBody =>
    obtain ⟨block, _, rfl, holds, rest⟩ := List.map_eq_cons_iff.mp held.symm
    obtain ⟨block', rfl, holds'⟩ := List.map_eq_singleton_iff.mp rest
    refine ⟨.ifElse condition block block', rfl, rfl, ?_⟩
    simp only [Store.perform, ← holds, ← holds']
    rfl
  | whileDo _ condition body =>
    obtain ⟨block, rfl, holds⟩ := List.map_eq_singleton_iff.mp held.symm
    refine ⟨.whileDo condition block, rfl, rfl, ?_⟩
    simp only [Store.perform, ← holds]
    rfl
  | call _ name =>
    obtain rfl := List.map_eq_nil_iff.mp held.symm
    refine ⟨.call name, rfl, rfl, ?_⟩
    simp only [Store.perform, Fragment.call, Identifier.ofText?_text]
    rfl

/-- A statement of the right kind is taken apart into its bodies, and the answer says the rest. -/
theorem Disassembles.perform (disassembles : Disassembles unmake self kind targets)
    (held : store.fragments self = .statement s) (isKind : s.tree.kind = kind) :
    targets.length = s.bodies.length ∧ ∃ answer : Answer, answer.Tells s.tree.label ∧
      store.perform unmake =
        .ok (answer, (store.clear self).fill targets (s.bodies.map .block)) := by
  cases disassembles with
  | ifThen _ body =>
    cases s with
    | ifThen condition block =>
      refine ⟨rfl, .condition condition, rfl, ?_⟩
      simp only [Store.perform, held]
      rfl
    | _ => cases isKind
  | ifElse _ thenBody elseBody =>
    cases s with
    | ifElse condition block block' =>
      refine ⟨rfl, .condition condition, rfl, ?_⟩
      simp only [Store.perform, held]
      rfl
    | _ => cases isKind
  | whileDo _ body =>
    cases s with
    | whileDo condition block =>
      refine ⟨rfl, .condition condition, rfl, ?_⟩
      simp only [Store.perform, held]
      rfl
    | _ => cases isKind
  | call _ =>
    cases s with
    | call name =>
      refine ⟨rfl, .name name, rfl, ?_⟩
      simp only [Store.perform, held]
      rfl
    | _ => cases isKind

theorem ne_of_held (held : store.fragments self = .block statements)
    (holds : store.fragments child = .statement s) : child ≠ self := by
  rintro rfl
  rw [held] at holds
  cases holds

theorem perform_add (held : store.fragments self = .block statements)
    (holds : store.fragments child = .statement s) (inside : position ≤ statements.length) :
    store.perform (.add self position child) =
      .ok (.done, (store.clear child).put self (.block (statements.insertIdx position s))) := by
  have inserted : (Fragment.block statements).insert position (.statement s) =
      .ok (.block (statements.insertIdx position s)) := by
    rw [insertIdx_eq_take_append_drop inside]
    exact if_pos inside
  simp only [Store.perform, held, holds, inserted]
  rfl

theorem perform_remove (held : store.fragments self = .block statements)
    (found : statements[position]? = some s) :
    store.perform (.remove self position target) =
      .ok (.done, (store.put self (.block (statements.eraseIdx position))).put target
        (.statement s)) := by
  simp only [Store.perform, held, Fragment.remove_of_some found]
  rfl

/-! ### Nodes -/

/-- What has been assembled over any slot is disassembled into any slots: they get the bodies in
order, and everything else that was named is empty. -/
theorem disassemble_assemble (store : Store) (assembles : Assembles make self label bodies)
    (disassembles : Disassembles unmake self label.kind targets) (apart : (self :: bodies).Nodup)
    (separate : (self :: targets).Nodup)
    (areBlocks : ∀ body ∈ bodies, (store.fragments body).kind = .block) :
    ∃ made answer behind, store.Takes make .done made ∧ made.Takes unmake answer behind ∧
      answer.Tells label ∧ targets.map behind.fragments = bodies.map store.fragments ∧
      behind.fragments self = .empty ∧
      (∀ body ∈ bodies, body ∉ targets → behind.fragments body = .empty) ∧
      Untouched (self :: bodies ++ targets) store behind := by
  obtain ⟨blocks, held⟩ := exists_blocks areBlocks
  obtain ⟨s, rfl, rfl, performed⟩ := assembles.perform held
  let made := (store.clearAll bodies).put self (.statement s)
  have holds : made.fragments self = .statement s := fragments_put _ self _
  obtain ⟨enough, answer, tells, undone⟩ := disassembles.perform holds rfl
  have emptied : ∀ slot ∉ targets, slot ≠ self →
      ((made.clear self).fill targets (s.bodies.map .block)).fragments slot =
        if slot ∈ bodies then .empty else store.fragments slot := by
    intro slot outside other
    rw [fragments_fill_of_notMem outside, fragments_clear_of_ne made other,
      fragments_put_of_ne _ other, fragments_clearAll]
  have selfOutside := (List.nodup_cons.mp separate).1
  refine ⟨made, answer, _, .of_performed (by rwa [assembles.slots]) performed,
    .of_performed (by rwa [disassembles.slots]) undone, tells, ?_, ?_, ?_, ?_, ?_⟩
  · rw [map_fragments_fill (List.nodup_cons.mp separate).2 (by simpa using enough), held]
  · rw [fragments_fill_of_notMem selfOutside, fragments_clear]
  · intro body member outside
    have other : body ≠ self := fun same => (List.nodup_cons.mp apart).1 (same ▸ member)
    rw [emptied body outside other, if_pos member]
  · intro slot unnamed
    simp only [List.cons_append, List.mem_cons, List.mem_append, not_or] at unnamed
    rw [emptied slot unnamed.2.2 unnamed.1, if_neg unnamed.2.1]
  · simp [made]

/-- A statement that is no block is disassembled without fail, and assembled again, in any slot,
from what the slots with its parts then hold. -/
theorem assemble_disassemble (store : Store) (disassembles : Disassembles unmake self kind targets)
    (separate : (self :: targets).Nodup) (isKind : (store.fragments self).kind = kind) :
    ∃ answer left, store.Takes unmake answer left ∧
      answer.Tells (store.fragments self).tree.label ∧ left.fragments self = .empty ∧
      Untouched (self :: targets) store left ∧
      ∀ again make, Assembles make again (store.fragments self).tree.label targets →
        again ∉ targets →
        ∃ behind, left.Takes make .done behind ∧ behind.fragments again = store.fragments self ∧
          (∀ target ∈ targets, behind.fragments target = .empty) ∧
          Untouched (again :: targets) left behind := by
  obtain ⟨s, held⟩ := disassembles.exists_statement isKind
  rw [held] at isKind ⊢
  obtain ⟨enough, answer, tells, performed⟩ := disassembles.perform held isKind
  have selfOutside := (List.nodup_cons.mp separate).1
  have different := (List.nodup_cons.mp separate).2
  have parts : targets.map ((store.clear self).fill targets (s.bodies.map .block)).fragments =
      s.bodies.map .block := map_fragments_fill different (by simpa using enough)
  refine ⟨answer, _, .of_performed (by rwa [disassembles.slots]) performed, tells, ?_, ⟨?_, ?_⟩,
    ?_⟩
  · rw [fragments_fill_of_notMem selfOutside, fragments_clear]
  · intro slot unnamed
    rw [List.mem_cons, not_or] at unnamed
    rw [fragments_fill_of_notMem unnamed.2, fragments_clear_of_ne store unnamed.1]
  · simp
  · intro again make assembles outside
    obtain ⟨made, label, bodies, remade⟩ := assembles.perform parts
    obtain rfl := Statement.ext_bodies label bodies
    have apart : (again :: targets).Nodup := List.nodup_cons.mpr ⟨outside, different⟩
    refine ⟨_, .of_performed (by rwa [assembles.slots]) remade, fragments_put _ again _, ?_,
      ⟨?_, ?_⟩⟩
    · intro target member
      have other : target ≠ again := fun same => outside (same ▸ member)
      rw [fragments_put_of_ne _ other, fragments_clearAll, if_pos member]
    · intro slot unnamed
      rw [List.mem_cons, not_or] at unnamed
      rw [fragments_put_of_ne _ unnamed.1, fragments_clearAll, if_neg unnamed.2]
    · simp

/-- A node without the body that the table asks for cannot be taken apart. -/
example : ∃ left, (Forest.moves (.disassembleIf "self" "body")).run
    (Forest.fresh.put "self" (.node (.ifThen .random) [])) = .error (.torn "self") left :=
  ⟨_, rfl⟩

/-! ### Positions in a block -/

/-- A statement that is added to a block and removed again is the one that was added, and the block
is as it was. -/
theorem remove_add (store : Store) (held : store.fragments self = .block statements)
    (holds : store.fragments child = .statement s) (inside : position ≤ statements.length)
    (other : target ≠ self) :
    ∃ added behind, store.Takes (.add self position child) .done added ∧
      added.Takes (.remove self position target) .done behind ∧
      behind.fragments target = .statement s ∧ behind.fragments self = .block statements ∧
      (child ≠ target → behind.fragments child = .empty) ∧
      Untouched [self, child, target] store behind := by
  have apart := ne_of_held held holds
  let added := (store.clear child).put self (.block (statements.insertIdx position s))
  have more : added.fragments self = .block (statements.insertIdx position s) :=
    fragments_put _ self _
  have found : (statements.insertIdx position s)[position]? = some s := by
    rw [List.getElem?_insertIdx_self, if_pos inside]
  refine ⟨added, _, .of_performed (by simp [Operation.slots, apart.symm])
    (perform_add held holds inside), .of_performed (by simp [Operation.slots, other.symm])
    (perform_remove more found), fragments_put _ target _, ?_, ?_, ⟨?_, ?_⟩⟩
  · rw [fragments_put_of_ne _ other.symm, fragments_put, List.eraseIdx_insertIdx_self]
  · intro kept
    rw [fragments_put_of_ne _ kept, fragments_put_of_ne _ apart, fragments_put_of_ne _ apart,
      fragments_clear]
  · intro slot unnamed
    simp only [List.mem_cons, List.not_mem_nil, or_false, not_or] at unnamed
    rw [fragments_put_of_ne _ unnamed.2.2, fragments_put_of_ne _ unnamed.1,
      fragments_put_of_ne _ unnamed.1, fragments_clear_of_ne _ unnamed.2.1]
  · rfl

/-- A statement that is removed from a block and added at the same position leaves the block as it
was. -/
theorem add_remove (store : Store) (held : store.fragments self = .block statements)
    (inside : position < statements.length) (other : target ≠ self) :
    ∃ removed behind, store.Takes (.remove self position target) .done removed ∧
      removed.Takes (.add self position target) .done behind ∧
      behind.fragments self = .block statements ∧ behind.fragments target = .empty ∧
      Untouched [self, target] store behind := by
  let s := statements[position]
  let removed := (store.put self (.block (statements.eraseIdx position))).put target (.statement s)
  have less : removed.fragments self = .block (statements.eraseIdx position) := by
    rw [fragments_put_of_ne _ other.symm, fragments_put]
  have room : position ≤ (statements.eraseIdx position).length := by
    rw [List.length_eraseIdx_of_lt inside]
    omega
  have back : (statements.eraseIdx position).insertIdx position s = statements :=
    List.insertIdx_eraseIdx_getElem inside
  refine ⟨removed, _, .of_performed (by simp [Operation.slots, other.symm])
    (perform_remove held (List.getElem?_eq_getElem inside)),
    .of_performed (by simp [Operation.slots, other.symm])
    (perform_add less (fragments_put _ target _) room), ?_, ?_, ⟨?_, ?_⟩⟩
  · rw [fragments_put, back]
  · rw [fragments_put_of_ne _ other, fragments_clear]
  · intro slot unnamed
    simp only [List.mem_cons, List.not_mem_nil, or_false, not_or] at unnamed
    rw [fragments_put_of_ne _ unnamed.1, fragments_clear_of_ne _ unnamed.2,
      fragments_put_of_ne _ unnamed.2, fragments_put_of_ne _ unnamed.1]
  · rfl

/-- Two statements may be added in either order; the one that comes later in the block is a position
further on if it is added second. -/
theorem add_add (store : Store) {first second : String} {early late : Nat} {s t : Statement}
    (held : store.fragments self = .block statements)
    (holds : store.fragments first = .statement s) (holds' : store.fragments second = .statement t)
    (different : first ≠ second) (order : early ≤ late) (inside : late ≤ statements.length) :
    ∃ one other behind, store.Takes (.add self late second) .done one ∧
      one.Takes (.add self early first) .done behind ∧
      store.Takes (.add self early first) .done other ∧
      other.Takes (.add self (late + 1) second) .done behind := by
  have apart := ne_of_held held holds
  have apart' := ne_of_held held holds'
  have separate : [self, first].Nodup := by simp [apart.symm]
  have separate' : [self, second].Nodup := by simp [apart'.symm]
  let one := (store.clear second).put self (.block (statements.insertIdx late t))
  let other := (store.clear first).put self (.block (statements.insertIdx early s))
  have firstKept : one.fragments first = .statement s := by
    rw [fragments_put_of_ne _ apart, fragments_clear_of_ne _ different, holds]
  have secondKept : other.fragments second = .statement t := by
    rw [fragments_put_of_ne _ apart', fragments_clear_of_ne _ different.symm, holds']
  have room : early ≤ (statements.insertIdx late t).length := by
    rw [List.length_insertIdx_of_le_length inside]
    omega
  have room' : late + 1 ≤ (statements.insertIdx early s).length := by
    rw [List.length_insertIdx_of_le_length (Nat.le_trans order inside)]
    omega
  have same : (other.clear second).put self
        (.block ((statements.insertIdx early s).insertIdx (late + 1) t)) =
      (one.clear first).put self (.block ((statements.insertIdx late t).insertIdx early s)) := by
    rw [List.insertIdx_comm s t order inside]
    show (((store.clear first).put self _).clear second).put self _ =
      (((store.clear second).put self _).clear first).put self _
    rw [put_clear_put, put_clear_put]
    exact congrArg (put · self _) (put_comm store different.symm _ _)
  refine ⟨one, other, _, .of_performed separate' (perform_add held holds' inside),
    .of_performed separate (perform_add (fragments_put _ self _) firstKept room),
    .of_performed separate (perform_add held holds (Nat.le_trans order inside)), ?_⟩
  rw [← same]
  exact .of_performed separate' (perform_add (fragments_put _ self _) secondKept room')

end Perform

/-! ### All laws together -/

/-- **Operations undo one another.** Assembled and disassembled, bodies are back, in any slots, with
the condition or the name; disassembled, which never fails, and assembled, a statement is back.
Added to a block and removed, or removed and added, a statement leaves the block as it was; two may
be added in either order. -/
theorem perform_inverts (store : Store) :
    (∀ {make unmake self label bodies targets}, Assembles make self label bodies →
      Disassembles unmake self label.kind targets → (self :: bodies).Nodup →
      (self :: targets).Nodup → (∀ body ∈ bodies, (store.fragments body).kind = .block) →
      ∃ made answer behind, store.Takes make .done made ∧ made.Takes unmake answer behind ∧
        answer.Tells label ∧ targets.map behind.fragments = bodies.map store.fragments ∧
        behind.fragments self = .empty ∧
        (∀ body ∈ bodies, body ∉ targets → behind.fragments body = .empty) ∧
        Untouched (self :: bodies ++ targets) store behind) ∧
    (∀ {unmake self kind targets}, Disassembles unmake self kind targets →
      (self :: targets).Nodup → (store.fragments self).kind = kind →
      ∃ answer left, store.Takes unmake answer left ∧
        answer.Tells (store.fragments self).tree.label ∧ left.fragments self = .empty ∧
        Untouched (self :: targets) store left ∧
        ∀ again make, Assembles make again (store.fragments self).tree.label targets →
          again ∉ targets →
          ∃ behind, left.Takes make .done behind ∧
            behind.fragments again = store.fragments self ∧
            (∀ target ∈ targets, behind.fragments target = .empty) ∧
            Untouched (again :: targets) left behind) ∧
    (∀ {self child target : String} {statements s position},
      store.fragments self = .block statements → store.fragments child = .statement s →
      position ≤ statements.length → target ≠ self →
      ∃ added behind, store.Takes (.add self position child) .done added ∧
        added.Takes (.remove self position target) .done behind ∧
        behind.fragments target = .statement s ∧ behind.fragments self = .block statements ∧
        (child ≠ target → behind.fragments child = .empty) ∧
        Untouched [self, child, target] store behind) ∧
    (∀ {self target : String} {statements position},
      store.fragments self = .block statements → position < statements.length → target ≠ self →
      ∃ removed behind, store.Takes (.remove self position target) .done removed ∧
        removed.Takes (.add self position target) .done behind ∧
        behind.fragments self = .block statements ∧ behind.fragments target = .empty ∧
        Untouched [self, target] store behind) ∧
    ∀ {self first second : String} {statements s t early late},
      store.fragments self = .block statements → store.fragments first = .statement s →
      store.fragments second = .statement t → first ≠ second → early ≤ late →
      late ≤ statements.length →
      ∃ one other behind, store.Takes (.add self late second) .done one ∧
        one.Takes (.add self early first) .done behind ∧
        store.Takes (.add self early first) .done other ∧
        other.Takes (.add self (late + 1) second) .done behind :=
  ⟨disassemble_assemble store, assemble_disassemble store, remove_add store, add_remove store,
    add_add store⟩

/-- An IF with ELSE over two blocks is taken apart into its bodies' own slots, the other way round,
and a statement that is added at the end of a block is removed again. -/
theorem perform_inverts_swapped :
    let skip : Statement := .call ⟨"skip", by decide⟩
    let turn : Statement := .call ⟨"turnleft", by decide⟩
    let store :=
      ((fresh.put "then" (.block [skip])).put "else" (.block [])).put "s" (.statement turn)
    (∃ made answer behind,
      store.Takes (.assembleIfElse "s" .random "then" "else") .done made ∧
      made.Takes (.disassembleIfElse "s" "else" "then") answer behind ∧
      answer.Tells (.ifElse .random) ∧ behind.fragments "else" = .block [skip] ∧
      behind.fragments "then" = .empty ∧ behind.fragments "s" = .empty) ∧
    ∃ added behind, store.Takes (.add "then" 1 "s") .done added ∧
      added.Takes (.remove "then" 1 "other") .done behind ∧
      behind.fragments "other" = .statement turn ∧ behind.fragments "then" = .block [skip] := by
  intro skip turn store
  obtain ⟨taken, _, removed, _⟩ := perform_inverts store
  obtain ⟨made, answer, behind, make, unmake, tells, bodies, empty, _⟩ :=
    taken (.ifElse "s" .random "then" "else") (.ifElse "s" "else" "then") (by decide) (by decide)
      (by simp [store, Fragment.kind]; decide)
  obtain ⟨atElse, rest⟩ := List.cons.inj bodies
  obtain ⟨added, back, add, remove, found, same, _⟩ :=
    @removed "then" "s" "other" [skip] turn 1 rfl rfl (by decide) (by decide)
  exact ⟨⟨made, answer, behind, make, unmake, tells, atElse, (List.cons.inj rest).1, empty⟩,
    added, back, add, remove, found, same⟩

end Store

end BlockLanguage
