/-
**Programs are read exactly.**

The tokens of a program spell its name, definitions in some order, and its body. Spelled that way, a
program is read unless a definition repeats a name or a block is nested too deep; read, it was
spelled that way, and its context consists of the definitions, whatever their order.

* `Program.spelling`: the lexemes of a program with definitions in a given order.
* `outcome_definition`, `outcome_definitions`, `outcome_program`: how the reading of what is spelled
  ends.
* `iterateFrom_definition_sound`, `program_sound`: what was read was spelled.
-/

import BlockLanguage.Grammar.Program
import BlockLanguage.Proofs.Exactness

namespace BlockLanguage

namespace Program

/-- The lexemes that spell a definition. -/
def definitionLexemes (entry : Identifier × Block) : List String :=
  ["INSTRUCTION", entry.1.text, "IS"] ++ Block.lexemes entry.2 ++ ["END", entry.1.text]

/-- The lexemes that spell a program whose definitions come in a given order. -/
def spelling (name : Identifier) (definitions : Context.Entries) (body : Block) : List String :=
  ["PROGRAM", name.text, "IS"] ++ definitions.flatMap definitionLexemes ++
    "BEGIN" :: Block.lexemes body ++ ["END", name.text]

end Program

namespace Context

/-- No two of the definitions have the same name. -/
def Distinct (definitions : Entries) : Prop :=
  definitions.Pairwise fun first second => first.1 ≠ second.1

/-- The definitions repeat no name, neither one of a context nor one of their own. -/
def Fresh (before : Context) (definitions : Entries) : Prop :=
  Distinct definitions ∧ ∀ entry ∈ definitions, before.find? entry.1.text = none

/-- The context that maps names as another one and as the definitions do. -/
def Extends (before : Context) (definitions : Entries) (after : Context) : Prop :=
  ∀ name body, after.find? name = some body ↔
    (∃ entry ∈ definitions, entry.1.text = name ∧ entry.2 = body) ∨ before.find? name = some body

/-- All definitions stay within a nesting limit. -/
def Within (limit : Nat) (definitions : Entries) : Prop :=
  ∀ entry ∈ definitions, Block.depth entry.2 ≤ limit

variable {before after : Context} {definitions : Entries} {name : Identifier} {body : Block}

theorem fresh_empty_iff : Fresh empty definitions ↔ Distinct definitions := by
  simp [Fresh]

theorem extends_empty_iff :
    Extends empty definitions after ↔ ∀ name body, after.find? name = some body ↔
      ∃ entry ∈ definitions, entry.1.text = name ∧ entry.2 = body := by
  simp [Extends]

theorem fresh_cons_iff (free : Word.isPrimitive name.text = false) :
    Fresh before ((name, body) :: definitions) ↔
      before.find? name.text = none ∧ Fresh (before.put name body free) definitions := by
  have different : ∀ entry : Identifier × Block,
      (before.put name body free).find? entry.1.text = none ↔
        name ≠ entry.1 ∧ before.find? entry.1.text = none := by
    intro entry
    rw [find?_put]
    by_cases same : name.text = entry.1.text
    · rw [if_pos same, Identifier.ext same]
      simp
    · rw [if_neg same]
      have apart : name ≠ entry.1 := fun equal => same (congrArg Identifier.text equal)
      simp [apart]
  simp only [Fresh, Distinct, List.pairwise_cons, List.forall_mem_cons, different]
  constructor
  · rintro ⟨⟨apart, distinct⟩, unused, absent⟩
    exact ⟨unused, distinct, fun entry member => ⟨apart entry member, absent entry member⟩⟩
  · rintro ⟨unused, distinct, absent⟩
    exact ⟨⟨fun entry member => (absent entry member).1, distinct⟩, unused,
      fun entry member => (absent entry member).2⟩

theorem extends_nil_iff : Extends before [] after ↔ after = before := by
  constructor
  · intro same
    refine ext_find? fun asked => Option.ext fun body => ?_
    simpa using same asked body
  · rintro rfl
    intro asked body
    simp

theorem extends_cons_iff (free : Word.isPrimitive name.text = false)
    (unused : before.find? name.text = none) :
    Extends before ((name, body) :: definitions) after ↔
      Extends (before.put name body free) definitions after := by
  have meaning : ∀ asked found, (before.put name body free).find? asked = some found ↔
      (name.text = asked ∧ body = found) ∨ before.find? asked = some found := by
    intro asked found
    rw [find?_put]
    by_cases same : name.text = asked
    · subst same
      simp [unused]
    · simp [same]
  have member : ∀ asked found,
      (∃ entry ∈ (name, body) :: definitions, entry.1.text = asked ∧ entry.2 = found) ↔
        (name.text = asked ∧ body = found) ∨
          ∃ entry ∈ definitions, entry.1.text = asked ∧ entry.2 = found := by
    intro asked found
    simp [or_and_right, exists_or]
  refine forall_congr' fun asked => forall_congr' fun found => ?_
  rw [meaning, member, or_assoc, or_left_comm]

end Context

/-- A program comprises definitions: no two of them have the same name, no name is built in, and its
context maps names exactly as they do. -/
structure Program.Comprises (program : Program) (definitions : Context.Entries) : Prop where
  distinct : Context.Distinct definitions
  definable : Context.Definable definitions
  find?_iff : ∀ name body, program.context.find? name = some body ↔
    ∃ entry ∈ definitions, entry.1.text = name ∧ entry.2 = body

namespace Grammar

open Program (definitionLexemes spelling)
open Context (Entries Distinct Fresh Extends Within Definable)

variable {limit : Nat} {first last : Cursor}

/-! ### One definition -/

/-- Behind the header of a definition its block is read, and its name is checked for repetition
behind the definition. -/
theorem run_definition_of_header (before : Context) {behind : Cursor} {name : Identifier}
    (marked : first.Marked) (free : Word.isPrimitive name.text = false)
    (header : first.Reads ["INSTRUCTION", name.text, "IS"] behind) :
    ∃ named, first.Reads ["INSTRUCTION"] named ∧
      (definition limit before).run first =
        (do let body ← block limit
            keyword "END"
            closingName name.text
            if (before.find? name.text).isSome then
              Rule.refuse fun _ => named.error (.duplicateInstruction name.text) none
            else return before.put name body free : Rule Context).run behind := by
  obtain ⟨named, atKeyword, header⟩ := Cursor.reads_cons_iff.mp header
  obtain ⟨behindName, atName, atIs⟩ := Cursor.reads_cons_iff.mp header
  have markedNamed := atKeyword.marked marked
  have markedName := atName.marked markedNamed
  refine ⟨named, atKeyword, ?_⟩
  rw [definition, Rule.run_bind_of_ok ((keyword_eq_ok_iff marked).mpr atKeyword),
    Rule.run_bind_of_ok (Rule.run_here named),
    Rule.run_bind_of_ok ((identifier_eq_ok_iff markedNamed).mpr atName), dif_pos free,
    Rule.run_bind_of_ok ((keyword_eq_ok_iff markedName).mpr atIs)]

/-- **How the reading of a spelled definition ends.** -/
theorem outcome_definition (before : Context) {name : Identifier} {body : Block}
    (marked : first.Marked) (free : Word.isPrimitive name.text = false)
    (reads : first.Reads (definitionLexemes (name, body)) last) :
    Outcome limit
      (fun after rest => rest = last ∧ after = before.put name body free ∧
        before.find? name.text = none ∧ Block.depth body ≤ limit)
      (limit < Block.depth body) (before.find? name.text ≠ none)
      ((definition limit before).run first) := by
  obtain ⟨behindBody, reads, closing⟩ := Cursor.reads_append_iff.mp reads
  obtain ⟨behind, header, readsBody⟩ := Cursor.reads_append_iff.mp reads
  obtain ⟨behindEnd, atEnd, atClosing⟩ := Cursor.reads_cons_iff.mp closing
  obtain ⟨named, -, run⟩ := @run_definition_of_header limit _ before _ _ marked free header
  have markedBehind := header.marked marked
  have markedBody := readsBody.marked markedBehind
  rw [run]
  refine (block_outcome markedBehind readsBody (blockGoesOn_of_end closing)).bind id False.elim ?_
  rintro _ _ ⟨rfl, rfl, within⟩
  rw [Rule.run_bind_of_ok ((keyword_eq_ok_iff markedBody).mpr atEnd),
    Rule.run_bind_of_ok ((closingName_eq_ok_iff (atEnd.marked markedBody)).mpr atClosing)]
  by_cases unused : before.find? name.text = none
  · rw [unused, if_neg (by decide)]
    exact .read ⟨rfl, rfl, rfl, within⟩
  · rw [if_pos (Option.isSome_iff_ne_none.mpr unused)]
    exact .repeated rfl unused

/-- A definition that was taken was spelled, within the limit and under a new name. -/
theorem definition_sound {before after : Context} (marked : first.Marked)
    (read : (definition limit before).run first = .ok (after, last)) :
    ∃ (name : Identifier) (body : Block) (free : Word.isPrimitive name.text = false),
      first.Reads (definitionLexemes (name, body)) last ∧ Block.depth body ≤ limit ∧
        before.find? name.text = none ∧ after = before.put name body free := by
  obtain ⟨_, named, atKeyword, read⟩ := Rule.run_bind_eq_ok_iff.mp read
  rw [Rule.run_bind_of_ok (Rule.run_here named)] at read
  obtain ⟨name, behindName, atName, read⟩ := Rule.run_bind_eq_ok_iff.mp read
  split at read
  · next free =>
    obtain ⟨_, behind, atIs, read⟩ := Rule.run_bind_eq_ok_iff.mp read
    obtain ⟨body, behindBody, atBody, read⟩ := Rule.run_bind_eq_ok_iff.mp read
    obtain ⟨_, behindEnd, atEnd, read⟩ := Rule.run_bind_eq_ok_iff.mp read
    obtain ⟨_, behindClosing, atClosing, read⟩ := Rule.run_bind_eq_ok_iff.mp read
    have readsKeyword := (keyword_eq_ok_iff marked).mp atKeyword
    have markedNamed := readsKeyword.marked marked
    have readsName := (identifier_eq_ok_iff markedNamed).mp atName
    have markedName := readsName.marked markedNamed
    have readsIs := (keyword_eq_ok_iff markedName).mp atIs
    have markedBehind := readsIs.marked markedName
    obtain ⟨readsBody, within, -⟩ := (block_eq_ok_iff markedBehind).mp atBody
    have markedBody := readsBody.marked markedBehind
    have readsEnd := (keyword_eq_ok_iff markedBody).mp atEnd
    have readsClosing := (closingName_eq_ok_iff (readsEnd.marked markedBody)).mp atClosing
    have opening := readsKeyword.trans (readsName.trans readsIs)
    split at read
    · cases read
    · next unused =>
      cases read
      refine ⟨name, body, free, ?_, within, ?_, rfl⟩
      · exact (opening.trans readsBody).trans (readsEnd.trans readsClosing)
      · simpa using unused
  · cases read

/-! ### All definitions -/

/-- **How the reading of spelled definitions ends.** -/
theorem outcome_definitions {before : Context} {definitions : Entries} (marked : first.Marked)
    (definable : Definable definitions)
    (reads : first.Reads (definitions.flatMap definitionLexemes) last)
    (ends : stands "INSTRUCTION" last = false) :
    Outcome limit
      (fun after rest => rest = last ∧ Fresh before definitions ∧ Within limit definitions ∧
        Extends before definitions after)
      (¬ Within limit definitions) (¬ Fresh before definitions)
      (Rule.iterateFrom (stands "INSTRUCTION") (definition limit) (progresses_definition limit)
        before first) := by
  induction definitions generalizing before first with
  | nil =>
    rw [← Cursor.reads_nil_iff.mp reads, Rule.iterateFrom_stop _ _ _ ends]
    exact .read ⟨rfl, ⟨.nil, List.forall_mem_nil _⟩, List.forall_mem_nil _,
      Context.extends_nil_iff.mpr rfl⟩
  | cons entry more ih =>
    obtain ⟨name, body⟩ := entry
    rw [List.flatMap_cons] at reads
    obtain ⟨rest, readsFirst, readsMore⟩ := Cursor.reads_append_iff.mp reads
    have free : Word.isPrimitive name.text = false := definable _ List.mem_cons_self
    have definableMore : Definable more := (List.forall_mem_cons.mp definable).2
    have again : stands "INSTRUCTION" first = true := stands_iff.mpr readsFirst.front_eq
    show Outcome limit _ _ _ ((Rule.iterate _ _ (progresses_definition limit) before).run first)
    rw [Rule.run_iterate_of_goesOn _ _ _ again]
    refine (outcome_definition before marked free readsFirst).bind ?_ ?_ ?_
    · intro deep within
      exact Nat.not_le_of_lt deep (within _ List.mem_cons_self)
    · intro used fresh
      exact used ((Context.fresh_cons_iff free).mp fresh).1
    · rintro _ _ ⟨rfl, rfl, unused, within⟩
      refine (ih (readsFirst.marked marked) definableMore readsMore).imp ?_ ?_ ?_
      · rintro after last' ⟨same, fresh, withinMore, meaning⟩
        exact ⟨same, (Context.fresh_cons_iff free).mpr ⟨unused, fresh⟩,
          List.forall_mem_cons.mpr ⟨within, withinMore⟩,
          (Context.extends_cons_iff free unused).mpr meaning⟩
      · intro tooDeep within
        exact tooDeep (List.forall_mem_cons.mp within).2
      · intro repeats fresh
        exact repeats ((Context.fresh_cons_iff free).mp fresh).2

/-- Definitions that were taken were spelled, within the limit and under new names. -/
theorem iterateFrom_definition_sound {first last : Cursor} {before after : Context}
    (marked : first.Marked)
    (read : Rule.iterateFrom (stands "INSTRUCTION") (definition limit)
      (progresses_definition limit) before first = .ok (after, last)) :
    ∃ definitions : Entries, first.Reads (definitions.flatMap definitionLexemes) last ∧
      Definable definitions ∧ Fresh before definitions ∧ Within limit definitions ∧
        Extends before definitions after ∧ stands "INSTRUCTION" last = false := by
  rcases Rule.iterateFrom_eq_ok_iff _ _ _ |>.mp read with
    ⟨ends, rfl, rfl⟩ | ⟨again, next, rest, atFirst, behind⟩
  · exact ⟨[], .refl _, List.forall_mem_nil _, ⟨.nil, List.forall_mem_nil _⟩,
      List.forall_mem_nil _, Context.extends_nil_iff.mpr rfl, ends⟩
  · have shorter := progresses_definition limit before _ _ _ again atFirst
    obtain ⟨name, body, free, readsFirst, within, unused, rfl⟩ :=
      definition_sound marked atFirst
    obtain ⟨definitions, readsMore, definable, fresh, withinMore, meaning, ends⟩ :=
      iterateFrom_definition_sound (readsFirst.marked marked) behind
    refine ⟨(name, body) :: definitions, ?_, List.forall_mem_cons.mpr ⟨free, definable⟩,
      (Context.fresh_cons_iff free).mpr ⟨unused, fresh⟩,
      List.forall_mem_cons.mpr ⟨within, withinMore⟩,
      (Context.extends_cons_iff free unused).mpr meaning, ends⟩
    rw [List.flatMap_cons]
    exact readsFirst.trans readsMore
termination_by first.live.length

/-! ### Programs -/

/-- The header of a program is followed by its first definition or by BEGIN. -/
theorem stands_of_reads {definitions : Entries} {more : List String}
    (reads : first.Reads (definitions.flatMap definitionLexemes ++ "BEGIN" :: more) last) :
    (stands "INSTRUCTION" first || stands "BEGIN" first) = true := by
  cases definitions with
  | nil =>
    have front : first.front.lexeme = "BEGIN" := reads.front_eq
    rw [stands_iff.mpr front, Bool.or_true]
  | cons entry others =>
    have front : first.front.lexeme = "INSTRUCTION" := reads.front_eq
    rw [stands_iff.mpr front, Bool.true_or]

theorem stands_instruction_of_begin {more : List String}
    (reads : first.Reads ("BEGIN" :: more) last) : stands "INSTRUCTION" first = false := by
  refine eq_false_of_ne_true fun here => ?_
  exact absurd (reads.front_eq.symm.trans (stands_iff.mp here)) (by decide)

/-- **How the reading of a spelled program ends.** -/
theorem outcome_program {name : Identifier} {definitions : Entries} {body : Block}
    (marked : first.Marked) (definable : Definable definitions)
    (reads : first.Reads (spelling name definitions body) last) (ended : last.atEnd = true) :
    Outcome limit
      (fun found rest => rest = last ∧ found.name = name ∧ found.body = body ∧
        found.Comprises definitions ∧ Within limit definitions ∧ Block.depth body ≤ limit)
      (¬ (Within limit definitions ∧ Block.depth body ≤ limit)) (¬ Distinct definitions)
      ((program limit).run first) := by
  obtain ⟨behindBody, reads, closing⟩ := Cursor.reads_append_iff.mp reads
  obtain ⟨atBegin, reads, readsBegin⟩ := Cursor.reads_append_iff.mp reads
  obtain ⟨behind, opening, readsDefinitions⟩ := Cursor.reads_append_iff.mp reads
  obtain ⟨named, atKeyword, opening⟩ := Cursor.reads_cons_iff.mp opening
  obtain ⟨behindName, atName, atIs⟩ := Cursor.reads_cons_iff.mp opening
  obtain ⟨behindBegin, stepBegin, readsBody⟩ := Cursor.reads_cons_iff.mp readsBegin
  obtain ⟨behindEnd, stepEnd, stepClosing⟩ := Cursor.reads_cons_iff.mp closing
  have markedNamed := atKeyword.marked marked
  have markedName := atName.marked markedNamed
  have markedBehind := atIs.marked markedName
  have markedAtBegin := readsDefinitions.marked markedBehind
  have markedBegin := stepBegin.marked markedAtBegin
  have markedBody := readsBody.marked markedBegin
  have goesOn := stands_of_reads (readsDefinitions.trans readsBegin)
  have noMore := stands_instruction_of_begin readsBegin
  rw [program, Rule.run_bind_of_ok ((keyword_eq_ok_iff marked).mpr atKeyword),
    Rule.run_bind_of_ok ((identifier_eq_ok_iff markedNamed).mpr atName),
    Rule.run_bind_of_ok ((keyword_eq_ok_iff markedName).mpr atIs),
    Rule.run_bind_of_ok (Rule.run_here behind), if_pos goesOn]
  refine (outcome_definitions markedBehind definable readsDefinitions noMore).bind
    (fun tooDeep within => tooDeep within.1)
    (fun repeats distinct => repeats (Context.fresh_empty_iff.mpr distinct)) ?_
  rintro context _ ⟨rfl, fresh, within, meaning⟩
  rw [Rule.run_bind_of_ok ((keyword_eq_ok_iff markedAtBegin).mpr stepBegin)]
  refine (block_outcome markedBegin readsBody (blockGoesOn_of_end closing)).bind
    (fun deep within => Nat.not_le_of_lt deep within.2) False.elim ?_
  rintro _ _ ⟨rfl, rfl, bodyWithin⟩
  rw [Rule.run_bind_of_ok ((keyword_eq_ok_iff markedBody).mpr stepEnd),
    Rule.run_bind_of_ok ((closingName_eq_ok_iff (stepEnd.marked markedBody)).mpr stepClosing),
    Rule.run_bind_of_ok (endOfInput_eq_ok_iff.mpr ⟨ended, rfl⟩)]
  exact .read ⟨rfl, rfl, rfl, ⟨Context.fresh_empty_iff.mp fresh, definable,
    Context.extends_empty_iff.mp meaning⟩, within, bodyWithin⟩

/-- **A program that was read was spelled**, within the limit. -/
theorem program_sound {found : Program} (marked : first.Marked)
    (read : (program limit).run first = .ok (found, last)) :
    ∃ definitions : Entries, first.Reads (spelling found.name definitions found.body) last ∧
      last.atEnd = true ∧ found.Comprises definitions ∧ Within limit definitions ∧
        Block.depth found.body ≤ limit := by
  obtain ⟨_, named, atKeyword, read⟩ := Rule.run_bind_eq_ok_iff.mp read
  obtain ⟨name, behindName, atName, read⟩ := Rule.run_bind_eq_ok_iff.mp read
  obtain ⟨_, behind, atIs, read⟩ := Rule.run_bind_eq_ok_iff.mp read
  rw [Rule.run_bind_of_ok (Rule.run_here behind)] at read
  split at read
  · obtain ⟨context, atBegin, atDefinitions, read⟩ := Rule.run_bind_eq_ok_iff.mp read
    obtain ⟨_, behindBegin, stepBegin, read⟩ := Rule.run_bind_eq_ok_iff.mp read
    obtain ⟨body, behindBody, atBody, read⟩ := Rule.run_bind_eq_ok_iff.mp read
    obtain ⟨_, behindEnd, stepEnd, read⟩ := Rule.run_bind_eq_ok_iff.mp read
    obtain ⟨_, behindClosing, stepClosing, read⟩ := Rule.run_bind_eq_ok_iff.mp read
    obtain ⟨_, behindAll, atAll, read⟩ := Rule.run_bind_eq_ok_iff.mp read
    have readsKeyword := (keyword_eq_ok_iff marked).mp atKeyword
    have markedNamed := readsKeyword.marked marked
    have readsName := (identifier_eq_ok_iff markedNamed).mp atName
    have markedName := readsName.marked markedNamed
    have readsIs := (keyword_eq_ok_iff markedName).mp atIs
    have markedBehind := readsIs.marked markedName
    obtain ⟨definitions, readsDefinitions, definable, fresh, within, meaning, -⟩ :=
      iterateFrom_definition_sound markedBehind atDefinitions
    have markedAtBegin := readsDefinitions.marked markedBehind
    have readsBegin := (keyword_eq_ok_iff markedAtBegin).mp stepBegin
    have markedBegin := readsBegin.marked markedAtBegin
    obtain ⟨readsBody, bodyWithin, -⟩ := (block_eq_ok_iff markedBegin).mp atBody
    have markedBody := readsBody.marked markedBegin
    have readsEnd := (keyword_eq_ok_iff markedBody).mp stepEnd
    have readsClosing := (closingName_eq_ok_iff (readsEnd.marked markedBody)).mp stepClosing
    cases read
    obtain ⟨ended, rfl⟩ := endOfInput_eq_ok_iff.mp atAll
    have opening := readsKeyword.trans (readsName.trans readsIs)
    have inside := (opening.trans readsDefinitions).trans (readsBegin.trans readsBody)
    exact ⟨definitions, inside.trans (readsEnd.trans readsClosing), ended,
      ⟨Context.fresh_empty_iff.mp fresh, definable, Context.extends_empty_iff.mp meaning⟩,
      within, bodyWithin⟩
  · cases read

end Grammar

end BlockLanguage
