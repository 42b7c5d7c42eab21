/-
**Which token lists are statements and blocks.**

The parse of a plain token list gives a statement or a block exactly if its lexemes spell it and it
is nested within the limit. What is spelled but nested deeper is refused for the limit.

* `Block.parse_eq_ok_iff`, `Statement.parse_eq_ok_iff`: which lists are accepted.
* `Block.parse_tooDeep`, `Statement.parse_tooDeep`: what happens beyond the limit.
-/

import BlockLanguage.Proofs.Exactness
import BlockLanguage.Proofs.PlainTokens

namespace BlockLanguage

namespace Grammar

/-- If what a rule reads ends at the end, then a whole input is read as the rule reads it. -/
theorem whole_outcome {α : Type} {limit : Nat} {rule : Rule α} {good : α → Cursor → Prop}
    {deep repeats : Prop} {first : Cursor}
    (outcome : Outcome limit good deep repeats (rule.run first))
    (ends : ∀ value rest, good value rest → rest.atEnd = true) :
    Outcome limit good deep repeats ((whole rule).run first) := by
  refine outcome.bind id id fun value rest holds => ?_
  rw [Rule.run_bind_of_ok (endOfInput_eq_ok_iff.mpr ⟨ends value rest holds, rfl⟩)]
  exact .read holds

/-- A whole input is read where a rule reads up to the end. -/
theorem whole_eq_ok_iff {α : Type} {rule : Rule α} {first last : Cursor} {value : α} :
    (whole rule).run first = .ok (value, last) ↔
      rule.run first = .ok (value, last) ∧ last.atEnd = true := by
  constructor
  · intro read
    obtain ⟨found, rest, readFirst, read⟩ := Rule.run_bind_eq_ok_iff.mp read
    obtain ⟨_, behind, atEnd, read⟩ := Rule.run_bind_eq_ok_iff.mp read
    cases read
    obtain ⟨ended, rfl⟩ := endOfInput_eq_ok_iff.mp atEnd
    exact ⟨readFirst, ended⟩
  · rintro ⟨readFirst, ended⟩
    rw [whole, Rule.run_bind_of_ok readFirst,
      Rule.run_bind_of_ok (endOfInput_eq_ok_iff.mpr ⟨ended, rfl⟩)]
    rfl

end Grammar

section Parse

variable {options : Options} {tokens : List Token} (plain : Token.Plain tokens)
include plain

/-! ### Blocks -/

namespace Block

variable {body : Block}

/-- **A block is accepted exactly if the lexemes spell it** and it is nested within the limit. -/
theorem parse_eq_ok_iff :
    Block.parse options tokens = .ok body ↔
      Token.lexemes tokens = Block.lexemes body ∧
        Block.depth body ≤ options.maxNestingDepth := by
  have marked := Cursor.marked_ofTokens plain
  rw [Block.parse, Rule.parse_eq_ok_iff, ← Cursor.lexemes_ofTokens plain, ← Cursor.reads_all_iff]
  simp only [Grammar.whole_eq_ok_iff, Grammar.block_eq_ok_iff marked]
  constructor
  · rintro ⟨last, ⟨reads, within, -⟩, ended⟩
    exact ⟨⟨last, reads, ended⟩, within⟩
  · rintro ⟨⟨last, reads, ended⟩, within⟩
    have ends := Grammar.blockGoesOn_eq_false_iff.mpr (.inr (.inr ended))
    exact ⟨last, ⟨reads, within, ends⟩, ended⟩

/-- A block that is spelled but nested too deep is refused for the limit. -/
theorem parse_tooDeep (spelled : Token.lexemes tokens = Block.lexemes body)
    (deep : options.maxNestingDepth < Block.depth body) :
    ∃ error, Block.parse options tokens = .error error ∧
      error.cause = .nestingTooDeep options.maxNestingDepth := by
  obtain ⟨last, reads, ended⟩ :=
    Cursor.reads_all_iff.mpr ((Cursor.lexemes_ofTokens plain).trans spelled)
  have ends := Grammar.blockGoesOn_eq_false_iff.mpr (.inr (.inr ended))
  have marked := Cursor.marked_ofTokens plain
  have outcome := Grammar.whole_outcome
    (@Grammar.block_outcome _ _ options.maxNestingDepth _ marked reads ends)
    fun _ rest good => good.2.1 ▸ ended
  obtain ⟨stop, refused, cause⟩ := outcome.exists_run_eq_error
    (fun _ _ good => Nat.not_le_of_lt deep good.2.2) id
  exact ⟨stop.error, Rule.parse_eq_error_iff.mpr ⟨stop, refused, rfl⟩, cause⟩

end Block

/-! ### Statements -/

namespace Statement

variable {s : Statement}

/-- **A statement is accepted exactly if the lexemes spell it** and it is nested within the
limit. -/
theorem parse_eq_ok_iff :
    Statement.parse options tokens = .ok s ↔
      Token.lexemes tokens = s.lexemes ∧ s.depth ≤ options.maxNestingDepth := by
  have marked := Cursor.marked_ofTokens plain
  rw [Statement.parse, Rule.parse_eq_ok_iff, ← Cursor.lexemes_ofTokens plain,
    ← Cursor.reads_all_iff]
  simp only [Grammar.whole_eq_ok_iff, Grammar.statement_eq_ok_iff marked]
  constructor
  · rintro ⟨last, ⟨reads, within⟩, ended⟩
    exact ⟨⟨last, reads, ended⟩, within⟩
  · rintro ⟨⟨last, reads, ended⟩, within⟩
    exact ⟨last, ⟨reads, within⟩, ended⟩

/-- A statement that is spelled but nested too deep is refused for the limit. -/
theorem parse_tooDeep (spelled : Token.lexemes tokens = s.lexemes)
    (deep : options.maxNestingDepth < s.depth) :
    ∃ error, Statement.parse options tokens = .error error ∧
      error.cause = .nestingTooDeep options.maxNestingDepth := by
  obtain ⟨last, reads, ended⟩ :=
    Cursor.reads_all_iff.mpr ((Cursor.lexemes_ofTokens plain).trans spelled)
  have marked := Cursor.marked_ofTokens plain
  have outcome := Grammar.whole_outcome
    (@Grammar.statement_outcome _ _ options.maxNestingDepth _ marked reads)
    fun _ rest good => good.2.1 ▸ ended
  obtain ⟨stop, refused, cause⟩ := outcome.exists_run_eq_error
    (fun _ _ good => Nat.not_le_of_lt deep good.2.2) id
  exact ⟨stop.error, Rule.parse_eq_error_iff.mpr ⟨stop, refused, rfl⟩, cause⟩

end Statement

end Parse

end BlockLanguage
