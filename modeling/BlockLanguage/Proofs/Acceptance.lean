/-
**Which token lists are programs.**

The parse of a plain token list gives a program exactly if its lexemes spell it: name, definitions
of distinct names that are not built in, and body, with every block within the limit. The spelling
belongs to one name, one list of definitions and one body, and the order of the definitions does not
change the program.

* `spelling_inj`: what is spelled can be told from the spelling.
* `Comprises.of_perm`: definitions in another order make up the same program.
* `parse_exact`: which token lists are accepted, and with which result.
-/

import BlockLanguage.Proofs.PlainTokens
import BlockLanguage.Proofs.ProgramGrammar

namespace BlockLanguage.Program

open Context (Entries Distinct Within Definable)

/-! ### A spelling belongs to one program -/

theorem definitionLexemes_eq (name : Identifier) (body : Block) (more : List String) :
    definitionLexemes (name, body) ++ more =
      "INSTRUCTION" :: name.text :: "IS" ::
        (Block.lexemes body ++ "END" :: name.text :: more) := by
  simp [definitionLexemes]

theorem spelling_eq (name : Identifier) (definitions : Entries) (body : Block) :
    spelling name definitions body =
      "PROGRAM" :: name.text :: "IS" :: (definitions.flatMap definitionLexemes ++
        "BEGIN" :: (Block.lexemes body ++ "END" :: [name.text])) := by
  simp [spelling]

/-- Definitions that are spelled alike up to a BEGIN are the same definitions. -/
theorem definitions_append_inj {definitions definitions' : Entries} {more more' : List String}
    (same : definitions.flatMap definitionLexemes ++ "BEGIN" :: more =
      definitions'.flatMap definitionLexemes ++ "BEGIN" :: more') :
    definitions = definitions' ∧ more = more' := by
  have apart : "BEGIN" ≠ "INSTRUCTION" := by decide
  induction definitions generalizing definitions' with
  | nil =>
    cases definitions' with
    | nil => exact ⟨rfl, (List.cons.inj same).2⟩
    | cons entry' others' =>
      rw [List.flatMap_cons, List.append_assoc, definitionLexemes_eq] at same
      exact absurd (List.cons.inj same).1 apart
  | cons entry others ih =>
    obtain ⟨name, body⟩ := entry
    rw [List.flatMap_cons, List.append_assoc, definitionLexemes_eq] at same
    cases definitions' with
    | nil => exact absurd (List.cons.inj same).1.symm apart
    | cons entry' others' =>
      obtain ⟨name', body'⟩ := entry'
      rw [List.flatMap_cons, List.append_assoc, definitionLexemes_eq] at same
      simp only [List.cons.injEq, true_and] at same
      obtain ⟨sameName, spelled⟩ := same
      obtain ⟨rfl, behind⟩ := Block.lexemes_append_inj spelled
      obtain ⟨rfl, rfl⟩ := ih (List.cons.inj behind).2
      rw [Identifier.ext sameName]
      exact ⟨rfl, rfl⟩

/-- **What is spelled can be told from the spelling.** -/
theorem spelling_inj {name name' : Identifier} {definitions definitions' : Entries}
    {body body' : Block}
    (same : spelling name definitions body = spelling name' definitions' body') :
    name = name' ∧ definitions = definitions' ∧ body = body' := by
  rw [spelling_eq, spelling_eq] at same
  simp only [List.cons.injEq, true_and] at same
  obtain ⟨sameName, spelled⟩ := same
  obtain ⟨rfl, behind⟩ := definitions_append_inj spelled
  exact ⟨Identifier.ext sameName, rfl, (Block.lexemes_append_inj behind).1⟩

/-! ### The order of the definitions -/

section Order

variable {program program' : Program} {definitions reordered : Entries}

/-- A name, a body and definitions make up one program only. -/
theorem Comprises.unique (comprises : program.Comprises definitions)
    (comprises' : program'.Comprises definitions) (sameName : program.name = program'.name)
    (sameBody : program.body = program'.body) : program = program' := by
  have sameContext : program.context = program'.context := by
    refine Context.ext_find? fun asked => Option.ext fun found => ?_
    rw [comprises.find?_iff, comprises'.find?_iff]
  cases program
  cases program'
  cases sameName
  cases sameBody
  cases sameContext
  rfl

/-- Definitions in another order make up the same program. -/
theorem Comprises.of_perm (comprises : program.Comprises definitions)
    (order : definitions.Perm reordered) : program.Comprises reordered where
  distinct := (order.pairwise_iff fun apart same => apart same.symm).mp comprises.distinct
  definable entry member := comprises.definable entry (order.mem_iff.mpr member)
  find?_iff name body := by
    rw [comprises.find?_iff]
    refine exists_congr fun entry => ?_
    rw [order.mem_iff]

end Order

/-! ### Acceptance -/

/-- Definitions and a body within a nesting limit, which with its name make up a program, are
spelled by lexemes. -/
structure Spells (limit : Nat) (lexemes : List String) (definitions : Entries)
    (program : Program) : Prop where
  comprises : program.Comprises definitions
  within : Within limit definitions
  bodyWithin : Block.depth program.body ≤ limit
  spelled : lexemes = spelling program.name definitions program.body

theorem Spells.of_perm {limit : Nat} {lexemes : List String} {definitions reordered : Entries}
    {program : Program} (spells : Spells limit lexemes definitions program)
    (order : definitions.Perm reordered) :
    Spells limit (spelling program.name reordered program.body) reordered program where
  comprises := spells.comprises.of_perm order
  within entry member := spells.within entry (order.mem_iff.mpr member)
  bodyWithin := spells.bodyWithin
  spelled := rfl

section Acceptance

variable {options : Options} {tokens : List Token} (plain : Token.Plain tokens)
include plain

/-- Distinct definitions of names that are not built in, spelled within the limit, are accepted. -/
theorem exists_parse_of_spelling {name : Identifier} {definitions : Entries} {body : Block}
    (distinct : Distinct definitions) (definable : Definable definitions)
    (within : Within options.maxNestingDepth definitions)
    (bodyWithin : Block.depth body ≤ options.maxNestingDepth)
    (spelled : Token.lexemes tokens = spelling name definitions body) :
    ∃ program, Program.parse options tokens = .ok program ∧ program.name = name ∧
      program.body = body ∧ program.Comprises definitions := by
  have ahead := (Cursor.lexemes_ofTokens plain).trans spelled
  obtain ⟨last, reads, ended⟩ := Cursor.reads_all_iff.mpr ahead
  obtain ⟨program, rest, run, -, sameName, sameBody, comprises, -⟩ :=
    (Grammar.outcome_program (Cursor.marked_ofTokens plain) definable reads ended).exists_run_eq_ok
      (not_not_intro ⟨within, bodyWithin⟩) (not_not_intro distinct)
  exact ⟨program, Rule.parse_eq_ok_iff.mpr ⟨rest, run⟩, sameName, sameBody, comprises⟩

theorem parse_of_spells {program : Program} {definitions : Entries}
    (spells : Spells options.maxNestingDepth (Token.lexemes tokens) definitions program) :
    Program.parse options tokens = .ok program := by
  obtain ⟨found, parsed, sameName, sameBody, comprises⟩ :=
    exists_parse_of_spelling plain spells.comprises.distinct spells.comprises.definable
      spells.within spells.bodyWithin spells.spelled
  rw [parsed, comprises.unique spells.comprises sameName sameBody]

theorem spells_of_parse {program : Program}
    (parsed : Program.parse options tokens = .ok program) :
    ∃ definitions, Spells options.maxNestingDepth (Token.lexemes tokens) definitions program := by
  obtain ⟨last, read⟩ := Rule.parse_eq_ok_iff.mp parsed
  obtain ⟨definitions, reads, ended, comprises, within, bodyWithin⟩ :=
    Grammar.program_sound (Cursor.marked_ofTokens plain) read
  refine ⟨definitions, comprises, within, bodyWithin, ?_⟩
  rw [← Cursor.lexemes_ofTokens plain]
  exact Cursor.reads_all_iff.mp ⟨last, reads, ended⟩

/-- **A plain token list is accepted exactly if its lexemes spell a program**, with that program as
the result; the spelling belongs to no other name, definitions or body, and the program is the same
for the definitions in any order. -/
theorem parse_exact :
    (∀ program, Program.parse options tokens = .ok program ↔
      ∃ definitions, Spells options.maxNestingDepth (Token.lexemes tokens) definitions program) ∧
    (∀ name definitions body, Distinct definitions → Definable definitions →
      Within options.maxNestingDepth definitions → Block.depth body ≤ options.maxNestingDepth →
      Token.lexemes tokens = spelling name definitions body →
        ∃ program, Program.parse options tokens = .ok program ∧ program.name = name ∧
          program.body = body ∧ program.Comprises definitions) ∧
    (∀ name definitions body name' definitions' body',
      Token.lexemes tokens = spelling name definitions body →
      Token.lexemes tokens = spelling name' definitions' body' →
        name = name' ∧ definitions = definitions' ∧ body = body') ∧
    ∀ program definitions reordered tokens', Program.parse options tokens = .ok program →
      Token.lexemes tokens = spelling program.name definitions program.body →
      definitions.Perm reordered → Token.Plain tokens' →
      Token.lexemes tokens' = spelling program.name reordered program.body →
        Program.parse options tokens' = .ok program := by
  refine ⟨fun program => ⟨spells_of_parse plain, ?_⟩, ?_, ?_, ?_⟩
  · rintro ⟨definitions, spells⟩
    exact parse_of_spells plain spells
  · intro name definitions body
    exact exists_parse_of_spelling plain
  · intro name definitions body name' definitions' body' spelled spelled'
    exact spelling_inj (spelled.symm.trans spelled')
  · intro program definitions reordered tokens' parsed spelled order plain' spelled'
    obtain ⟨found, spells⟩ := spells_of_parse plain parsed
    obtain ⟨-, rfl, -⟩ := spelling_inj (spelled.symm.trans spells.spelled)
    refine @parse_of_spells _ _ plain' _ reordered ?_
    rw [spelled']
    exact spells.of_perm order

end Acceptance

/-- A program is accepted with its definitions in an order that is not that of their names. -/
theorem parse_exact_two_definitions :
    ∃ program, Program.parse ⟨1⟩ (Token.ofLexemes ["PROGRAM", "go", "IS",
        "INSTRUCTION", "turn", "IS", "IF", "random", "THEN", "ELSE", "move", "END", "IF", "END",
        "turn", "INSTRUCTION", "stay", "IS", "END", "stay", "BEGIN", "turn", "END", "go"]) =
      .ok program ∧
      program.name.text = "go" ∧ program.context.find? "stay" = some [] := by
  have plain : Token.Plain (Token.ofLexemes ["PROGRAM", "go", "IS",
      "INSTRUCTION", "turn", "IS", "IF", "random", "THEN", "ELSE", "move", "END", "IF", "END",
      "turn", "INSTRUCTION", "stay", "IS", "END", "stay", "BEGIN", "turn", "END", "go"]) := by
    decide +kernel
  obtain ⟨program, parsed, sameName, -, comprises⟩ := (@parse_exact ⟨1⟩ _ plain).2.1
    ⟨"go", by decide +kernel⟩
    [(⟨"turn", by decide +kernel⟩, [.ifElse .random [] [.call ⟨"move", by decide +kernel⟩]]),
      (⟨"stay", by decide +kernel⟩, [])]
    [.call ⟨"turn", by decide +kernel⟩]
    (by simp [Distinct]) (by simp [Definable]; decide)
    (by simp [Within, Block.depth, Statement.depth])
    (by simp [Block.depth, Statement.depth]) (by decide +kernel)
  refine ⟨program, parsed, ?_, ?_⟩
  · rw [sameName]
  · rw [comprises.find?_iff]
    simp

end BlockLanguage.Program
