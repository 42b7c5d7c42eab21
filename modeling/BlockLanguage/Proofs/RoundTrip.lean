/-
**What is printed is read back.**

A statement or block is printed with the lexemes that spell it, whatever its indentation. A program
is printed with its definitions in the order of their names, which are distinct and not built in. So
the printed text spells what was printed: a parse gives it back if the limit allows for its nesting,
and otherwise fails for the limit. What a parse has read is within the limit, and so the same limit
reads its printed text.

* `Fragment.lexemes_tokenize_textAt`: a printed fragment is scanned into the lexemes that spell it.
* `Fragment.parse_textAt`: what the parse of a printed statement or block comes to.
* `comprises_entries`: a program comprises the entries of its context.
* `Program.parse_text`: what the parse of a printed program comes to, for every limit.
-/

import BlockLanguage.Proofs.Depth
import BlockLanguage.Proofs.Scanning
import BlockLanguage.Proofs.WholeInput

namespace BlockLanguage

/-! ### Statements and blocks -/

namespace Fragment

theorem words_lines (indent : Nat) (fragment : Fragment) :
    (fragment.lines indent).flatMap (·.words) = fragment.lexemes := by
  cases fragment with
  | block body => exact Block.words_lines indent body
  | statement s => exact Statement.words_lines indent s

theorem areWords_lexemes (fragment : Fragment) : Word.AreWords fragment.lexemes := by
  cases fragment with
  | block body => exact Block.areWords_lexemes body
  | statement s => exact Statement.areWords_lexemes s

/-- **A printed fragment is scanned into the lexemes that spell it**, at every indentation. -/
theorem lexemes_tokenize_textAt (fragment : Fragment) (indent : Nat) :
    Token.lexemes (tokenize (fragment.textAt indent)) = fragment.lexemes := by
  have words : Word.AreWords ((fragment.lines indent).flatMap (·.words)) := by
    rw [words_lines]
    exact fragment.areWords_lexemes
  rw [lexemes_tokenize, textAt, Text.lexemes_join words, words_lines]

/-- The statements that a fragment consists of are spelled like the fragment. -/
theorem lexemes_statements (fragment : Fragment) :
    Block.lexemes fragment.statements = fragment.lexemes := by
  cases fragment with
  | block body => rfl
  | statement s => simp [statements, Block.lexemes, lexemes]

/-- The statements that a fragment consists of are nested as deep as the fragment. -/
theorem depth_statements (fragment : Fragment) :
    Block.depth fragment.statements = fragment.depth := by
  cases fragment with
  | block body => rfl
  | statement s => simp [statements, Block.depth, depth]

/-- **The round trip of statements and blocks, at every indentation and for every limit**: a printed
fragment is read back as the block of its statements, and a statement as itself, if the fragment is
nested within the limit; otherwise both are refused for the limit. -/
theorem parse_textAt (fragment : Fragment) (indent : Nat) (options : Options) :
    (fragment.depth ≤ options.maxNestingDepth →
      Block.parse options (tokenize (fragment.textAt indent)) = .ok fragment.statements ∧
      ∀ s, fragment = .statement s →
        Statement.parse options (tokenize (fragment.textAt indent)) = .ok s) ∧
    (options.maxNestingDepth < fragment.depth →
      (∃ error, Block.parse options (tokenize (fragment.textAt indent)) = .error error ∧
        error.cause = .nestingTooDeep options.maxNestingDepth) ∧
      ∀ s, fragment = .statement s →
        ∃ error, Statement.parse options (tokenize (fragment.textAt indent)) = .error error ∧
          error.cause = .nestingTooDeep options.maxNestingDepth) := by
  have plain := plain_tokenize (fragment.textAt indent)
  have spelled := fragment.lexemes_tokenize_textAt indent
  have spelledBlock := spelled.trans fragment.lexemes_statements.symm
  rw [← fragment.depth_statements]
  refine ⟨fun within => ⟨?_, ?_⟩, fun deep => ⟨?_, ?_⟩⟩
  · exact (Block.parse_eq_ok_iff plain).mpr ⟨spelledBlock, within⟩
  · rintro s rfl
    rw [depth_statements] at within
    exact (Statement.parse_eq_ok_iff plain).mpr ⟨spelled, within⟩
  · exact Block.parse_tooDeep plain spelledBlock deep
  · rintro s rfl
    rw [depth_statements] at deep
    exact Statement.parse_tooDeep plain spelled deep

/-- An IF with an empty body and a WHILE in its ELSE is read back, five columns in, with two levels
of nesting, and refused with one. -/
theorem parse_textAt_two_levels :
    ∃ s : Statement, s.depth = 2 ∧
      Statement.parse ⟨2⟩ (tokenize ((statement s).textAt 5)) = .ok s ∧
      Block.parse ⟨2⟩ (tokenize ((statement s).textAt 5)) = .ok [s] ∧
      ∃ error, Statement.parse ⟨1⟩ (tokenize ((statement s).textAt 5)) = .error error ∧
        error.cause = .nestingTooDeep 1 := by
  have two : (statement (.ifElse .random [] [.whileDo .always []])).depth = 2 := by
    simp [depth, Statement.depth, Block.depth]
  obtain ⟨asBlock, asStatement⟩ := (parse_textAt _ 5 ⟨2⟩).1 (Nat.le_of_eq two)
  obtain ⟨-, refused⟩ := (parse_textAt _ 5 ⟨1⟩).2 (Nat.lt_of_lt_of_eq Nat.one_lt_two two.symm)
  exact ⟨_, two, asStatement _ rfl, asBlock, refused _ rfl⟩

end Fragment

/-! ### Programs -/

namespace Context

theorem distinct_of_sorted {entries : Entries} (sorted : Sorted entries) : Distinct entries := by
  refine List.Pairwise.imp ?_ sorted
  intro first second below same
  rw [same] at below
  exact String.lt_irrefl _ below

end Context

namespace Program

open Context (Within)

variable {program : Program} {options : Options}

/-- A program comprises the entries of its context. -/
theorem comprises_entries (program : Program) : program.Comprises program.context.entries where
  distinct := Context.distinct_of_sorted program.context.sorted
  definable := program.context.definable
  find?_iff _ _ := Context.lookup_eq_some_iff program.context.sorted

/-- Within the limit, a printed program is read back. -/
theorem parse_text_of_within (within : Within options.maxNestingDepth program.context.entries)
    (bodyWithin : Block.depth program.body ≤ options.maxNestingDepth) :
    Program.parse options (tokenize program.text) = .ok program :=
  parse_of_spells (plain_tokenize _)
    ⟨program.comprises_entries, within, bodyWithin, program.lexemes_tokenize_text⟩

/-- Beyond the limit, a printed program is refused for its nesting. -/
theorem parse_text_tooDeep (deep : ¬ (Within options.maxNestingDepth program.context.entries ∧
      Block.depth program.body ≤ options.maxNestingDepth)) :
    ∃ error, Program.parse options (tokenize program.text) = .error error ∧
      error.cause = .nestingTooDeep options.maxNestingDepth := by
  have plain := plain_tokenize program.text
  have ahead := (Cursor.lexemes_ofTokens plain).trans program.lexemes_tokenize_text
  obtain ⟨last, reads, ended⟩ := Cursor.reads_all_iff.mpr ahead
  have comprises := program.comprises_entries
  obtain ⟨stop, run, cause⟩ :=
    (Grammar.outcome_program (Cursor.marked_ofTokens plain) comprises.definable reads
      ended).exists_run_eq_error (fun _ _ good => deep good.2.2.2.2)
      (not_not_intro comprises.distinct)
  exact ⟨stop.error, Rule.parse_eq_error_iff.mpr ⟨stop, run, rfl⟩, cause⟩

/-- **The round trip of programs, for every limit**: a printed program is read back if its
definitions and its body are nested within the limit, and otherwise refused for the limit; so what
was read from any tokens is read back from its printed text with the same options. -/
theorem parse_text (program : Program) (options : Options) :
    (Within options.maxNestingDepth program.context.entries ∧
        Block.depth program.body ≤ options.maxNestingDepth →
      Program.parse options (tokenize program.text) = .ok program) ∧
    (¬ (Within options.maxNestingDepth program.context.entries ∧
        Block.depth program.body ≤ options.maxNestingDepth) →
      ∃ error, Program.parse options (tokenize program.text) = .error error ∧
        error.cause = .nestingTooDeep options.maxNestingDepth) ∧
    ∀ tokens, Program.parse options tokens = .ok program →
      Program.parse options (tokenize program.text) = .ok program := by
  refine ⟨fun within => parse_text_of_within within.1 within.2, parse_text_tooDeep,
    fun tokens parsed => ?_⟩
  obtain ⟨last, read⟩ := Rule.parse_eq_ok_iff.mp parsed
  have within := Grammar.yields_program _ _ _ _ read
  exact parse_text_of_within within.1 within.2

/-- A program with an empty ELSE and a definition is read back with one level of nesting, and
refused with none. -/
theorem parse_text_one_level :
    ∃ program : Program, program.name.text = "go" ∧ Block.depth program.body = 1 ∧
      Program.parse ⟨1⟩ (tokenize program.text) = .ok program ∧
      ∃ error, Program.parse ⟨0⟩ (tokenize program.text) = .error error ∧
        error.cause = .nestingTooDeep 0 := by
  refine ⟨⟨⟨"go", by decide +kernel⟩,
    Context.empty.put ⟨"stay-here", by decide +kernel⟩ [] (by decide +kernel),
    [.ifElse .always [.call ⟨"stay-here", by decide +kernel⟩] []]⟩, rfl, ?_, ?_, ?_⟩
  · simp [Block.depth, Statement.depth]
  · refine (parse_text _ ⟨1⟩).1 ⟨?_, ?_⟩
    · simp [Within, Context.put, Context.empty, Context.place, Block.depth]
    · simp [Block.depth, Statement.depth]
  · refine (parse_text _ ⟨0⟩).2.1 fun within => ?_
    simp [Block.depth, Statement.depth] at within

end Program

end BlockLanguage
