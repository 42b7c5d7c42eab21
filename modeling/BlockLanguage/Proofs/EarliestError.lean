/-
**The token that an error blames is the first that allows no completion.**

An error of the grammar comes at the earliest token at which it can: the lexemes before it begin a
member of the language, and with it they begin none. For that a member with the same beginning is
parsed: there the same error would be met, but members are only refused for a name that is defined
twice or for their nesting.

* `not_member_of_refused`: no member begins with what has been refused.
* `parse_earliest`: errors of whole inputs.
-/

import BlockLanguage.Proofs.GrammarLocality
import BlockLanguage.Proofs.ViablePrefix
import BlockLanguage.Proofs.WholeInput

namespace BlockLanguage

/-- Two fresh cursors with the same lexemes up to a bound are alike up to it. -/
theorem Cursor.alike_of_lexemes {first second : Cursor} {bound : Nat}
    (inside : bound ≤ first.lexemes.length)
    (firstFresh : first.position = 0) (secondFresh : second.position = 0)
    (same : second.lexemes.take bound = first.lexemes.take bound) :
    first.Alike ⟨fun _ _ => True, bound, 0⟩ second where
  position := secondFresh.trans firstFresh.symm
  ahead index before := by
    rw [firstFresh, Nat.zero_add] at before
    have lexemeAt : second.lexemes[index]? = first.lexemes[index]? := by
      have cut := congrArg (·[index]?) same
      simp only [List.getElem?_take_of_lt before] at cut
      exact cut
    have behind : index < first.live.length := by
      rw [lexemes, List.length_map] at inside
      exact Nat.lt_of_lt_of_le before inside
    rw [lexemes, lexemes, List.getElem?_map, List.getElem?_map,
      List.getElem?_eq_getElem behind] at lexemeAt
    obtain ⟨token, found, spelled⟩ := Option.map_eq_some_iff.mp lexemeAt
    have behind' : index < second.live.length := (List.getElem?_eq_some_iff.mp found).1
    rw [ahead, ahead, List.getElem?_append_left behind, List.getElem?_append_left behind', found,
      List.getElem?_eq_getElem behind]
    refine .some ⟨spelled, ?_, trivial⟩
    rw [first.live_open _ (List.getElem_mem behind),
      second.live_open token (List.mem_of_getElem? found)]

namespace Rule

variable {α : Type}

/-- A rule refuses no member of a language for a grammatical cause. -/
def Admits (rule : Rule α) (language : List String → Prop) : Prop :=
  ∀ {first last : Cursor} {lexemes : List String} {stop : Stop}, first.Marked →
    first.Reads lexemes last → last.atEnd = true → language lexemes →
      rule.run first = .error stop → stop.error.cause.isGrammatical = false

/-- An error of the grammar is settled by the tokens up to the one that it lies in. -/
theorem reach_of_isGrammatical {stop : Stop} (grammatical : stop.error.cause.isGrammatical = true) :
    stop.reach = stop.error.position + 1 := by
  refine Stop.reach_eq fun name repeats => ?_
  rw [repeats] at grammatical
  cases grammatical

section Refused

variable {rule : Rule α} {language : List String → Prop} {first : Cursor} {stop : Stop}
  (admits : rule.Admits language) (refused : rule.run first = .error stop)
  (grammatical : stop.error.cause.isGrammatical = true)
include admits refused grammatical

/-- **No member begins with what has been refused**, the refused token included. -/
theorem not_member_of_refused (same : ∀ likeness, rule.Alike likeness rule)
    (fresh : first.position = 0) (inside : stop.error.position < first.lexemes.length)
    (more : List String) : ¬ language (first.lexemes.take (stop.error.position + 1) ++ more) := by
  intro member
  obtain ⟨second, secondMarked, secondFresh, ahead⟩ :=
    Cursor.exists_marked 0 (first.lexemes.take (stop.error.position + 1) ++ more)
  have beginning : second.lexemes.take (stop.error.position + 1) =
      first.lexemes.take (stop.error.position + 1) := by
    rw [ahead, List.take_append_of_le_length (by rw [List.length_take]; omega), List.take_take,
      Nat.min_self]
  have alike := Cursor.alike_of_lexemes inside fresh secondFresh beginning
  obtain ⟨stop', refused', alikeStop⟩ := ((same _).agrees_of_alike alike).refused refused
    (Nat.le_of_eq (reach_of_isGrammatical grammatical))
  obtain ⟨last, reads, ended⟩ := Cursor.reads_all_iff.mpr ahead
  have ungrammatical := admits secondMarked reads ended member refused'
  rw [alikeStop.cause, grammatical] at ungrammatical
  cases ungrammatical

/-- What is refused is no member itself. -/
theorem not_member (marked : first.Marked) : ¬ language first.lexemes := by
  intro member
  obtain ⟨last, reads, ended⟩ := Cursor.reads_all_iff.mpr (@rfl _ first.lexemes)
  have ungrammatical := admits marked reads ended member refused
  rw [grammatical] at ungrammatical
  cases ungrammatical

end Refused

end Rule

/-- An error comes at the earliest token: before the token that it blames, lexemes begin a member of
a language, and up to it they begin none; where it says that the input ends, the lexemes begin a
member and are none. -/
structure ParseError.Earliest (language : List String → Prop) (lexemes : List String)
    (error : ParseError) : Prop where
  blamed : error.cause.blamesToken = true → error.position < lexemes.length ∧
    (∃ more, language (lexemes.take error.position ++ more)) ∧
      ∀ more, ¬ language (lexemes.take (error.position + 1) ++ more)
  ended : error.cause.isEndOfInput = true → error.position = lexemes.length ∧
    (∃ more, more ≠ [] ∧ language (lexemes ++ more)) ∧ ¬ language lexemes

theorem ParseError.Cause.isEndOfInput_of_blamesToken {cause : Cause}
    (blames : cause.blamesToken = true) : cause.isEndOfInput = false := by
  cases cause <;> first | rfl | cases blames

/-- A rule that is viable for a language and admits it finds errors as early as they can be. -/
theorem Rule.earliest_of_viable {α : Type} {rule : Rule α} {language : List String → Prop}
    (viable : rule.Viable fun _ lexemes => language lexemes) (admits : rule.Admits language)
    (same : ∀ likeness, rule.Alike likeness rule) {tokens : List Token} (plain : Token.Plain tokens)
    {error : ParseError} (failed : rule.parse tokens = .error error) :
    error.Earliest language (Token.lexemes tokens) := by
  obtain ⟨stop, refused, rfl⟩ := Rule.parse_eq_error_iff.mp failed
  have marked := Cursor.marked_ofTokens plain
  have fresh := Cursor.position_ofTokens tokens
  rw [← Cursor.lexemes_ofTokens plain]
  have viableAt := fun grammatical => viable.refused marked refused grammatical
  constructor
  · intro blamesToken
    have grammatical : stop.error.cause.isGrammatical = true := by
      rw [ParseError.Cause.isGrammatical, blamesToken, Bool.true_or]
    obtain ⟨seen, more, -, ⟨blame, reads, position, ends⟩, member⟩ := viableAt grammatical
    rw [reads.position_eq, fresh, Nat.zero_add] at position
    have inside : stop.error.position < (Cursor.ofTokens tokens).lexemes.length := by
      have ahead : blame.lexemes ≠ [] := by
        intro none
        have ended := ends.trans ((Cursor.atEnd_iff_lexemes blame).mpr none)
        rw [ParseError.Cause.isEndOfInput_of_blamesToken blamesToken] at ended
        cases ended
      rw [reads.lexemes_eq, List.length_append, position]
      exact Nat.lt_add_of_pos_right (List.length_pos_iff.mpr ahead)
    refine ⟨inside, ⟨more, ?_⟩, not_member_of_refused admits refused grammatical same fresh inside⟩
    rw [reads.lexemes_eq, position, List.take_left]
    exact member
  · intro endOfInput
    have grammatical : stop.error.cause.isGrammatical = true := by
      rw [ParseError.Cause.isGrammatical, endOfInput, Bool.or_true]
    obtain ⟨seen, more, -, ⟨blame, reads, position, ends⟩, member⟩ := viableAt grammatical
    have none := (Cursor.atEnd_iff_lexemes blame).mp (ends.symm.trans endOfInput)
    have outside := not_member admits refused grammatical marked
    have whole := reads.lexemes_eq
    rw [none, List.append_nil] at whole
    rw [whole] at outside ⊢
    refine ⟨?_, ⟨more, ?_, member⟩, outside⟩
    · rw [position, reads.position_eq, fresh, Nat.zero_add]
    · rintro rfl
      rw [List.append_nil] at member
      exact outside member

/-! ### The three languages -/

namespace Grammar

/-- How the reading of a member ends is no grammatical error. -/
theorem Outcome.not_isGrammatical {α : Type} {limit : Nat} {good : α → Cursor → Prop}
    {deep repeats : Prop} {stop : Stop} (outcome : Outcome limit good deep repeats (.error stop)) :
    stop.error.cause.isGrammatical = false := by
  cases outcome with
  | tooDeep cause _ => rw [cause]; rfl
  | repeated cause _ => rw [cause]; rfl

theorem admits_statement (limit : Nat) :
    (whole (statement limit)).Admits Statement.IsSpelling := by
  rintro first last _ stop marked reads ended ⟨s, rfl⟩ refused
  have outcome := whole_outcome (@statement_outcome _ _ limit _ marked reads)
    fun _ rest good => good.2.1 ▸ ended
  rw [refused] at outcome
  exact outcome.not_isGrammatical

theorem admits_block (limit : Nat) : (whole (block limit)).Admits Block.IsSpelling := by
  rintro first last _ stop marked reads ended ⟨body, rfl⟩ refused
  have ends := blockGoesOn_eq_false_iff.mpr (.inr (.inr ended))
  have outcome := whole_outcome (@block_outcome _ _ limit _ marked reads ends)
    fun _ rest good => good.2.1 ▸ ended
  rw [refused] at outcome
  exact outcome.not_isGrammatical

theorem admits_program (limit : Nat) : (program limit).Admits Program.IsSpelling := by
  rintro first last _ stop marked reads ended ⟨name, definitions, body, definable, rfl⟩ refused
  have outcome := @outcome_program limit _ _ _ _ _ marked definable reads ended
  rw [refused] at outcome
  exact outcome.not_isGrammatical

end Grammar

section Parse

variable {options : Options} {tokens : List Token} (plain : Token.Plain tokens)
include plain

/-- **Errors are found at the earliest token**, in programs, statements and blocks. -/
theorem parse_earliest :
    (∀ error, Program.parse options tokens = .error error →
      error.Earliest Program.IsSpelling (Token.lexemes tokens)) ∧
    (∀ error, Statement.parse options tokens = .error error →
      error.Earliest Statement.IsSpelling (Token.lexemes tokens)) ∧
    ∀ error, Block.parse options tokens = .error error →
      error.Earliest Block.IsSpelling (Token.lexemes tokens) := by
  refine ⟨fun error failed => ?_, fun error failed => ?_, fun error failed => ?_⟩
  · exact Rule.earliest_of_viable (Grammar.viable_program _) (Grammar.admits_program _)
      (fun _ => Grammar.alike_program _) plain failed
  · have viable := Grammar.viable_whole (Grammar.viable_statement options.maxNestingDepth)
    exact Rule.earliest_of_viable (viable.imp fun s _ spelled => ⟨s, spelled⟩)
      (Grammar.admits_statement _) (fun _ => Grammar.alike_whole (Grammar.alike_statement _)) plain
      failed
  · have viable := Grammar.viable_whole (Grammar.viable_block options.maxNestingDepth)
    exact Rule.earliest_of_viable (viable.imp fun body _ spelled => ⟨body, spelled⟩)
      (Grammar.admits_block _) (fun _ => Grammar.alike_whole (Grammar.alike_block _)) plain failed

end Parse

/-- THEN is blamed behind the condition of a WHILE, where DO could still follow. -/
theorem parse_earliest_then_for_do :
    ∃ error, Statement.parse {} (Token.ofLexemes ["WHILE", "true", "THEN"]) = .error error ∧
      error.position = 2 ∧ (∃ more, Statement.IsSpelling (["WHILE", "true"] ++ more)) ∧
      ∀ more, ¬ Statement.IsSpelling (["WHILE", "true", "THEN"] ++ more) := by
  have plain : Token.Plain (Token.ofLexemes ["WHILE", "true", "THEN"]) := by decide +kernel
  have spelled : Token.lexemes (Token.ofLexemes ["WHILE", "true", "THEN"]) =
      ["WHILE", "true", "THEN"] := by decide +kernel
  obtain ⟨error, failed, there, blames⟩ : ∃ error,
      Statement.parse {} (Token.ofLexemes ["WHILE", "true", "THEN"]) = .error error ∧
        error.position = 2 ∧ error.cause.blamesToken = true :=
    ⟨⟨.unexpectedToken "'DO'" "THEN", 2, ⟨1, 2⟩, none⟩, rfl, rfl, rfl⟩
  obtain ⟨-, viable, final⟩ := ((parse_earliest plain).2.1 error failed).blamed blames
  rw [there, spelled] at viable final
  exact ⟨error, failed, there, viable, final⟩

end BlockLanguage
