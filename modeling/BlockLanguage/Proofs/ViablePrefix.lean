/-
**Errors are found as early as they can be.**

A rule is viable for a language if what it reads belongs to the language, and what it has read up to
the token that it refuses can be completed to a member. Two causes are left out, since they lie in
no single token: a name that is defined twice, and blocks that are nested too deep.

* `Viable.bind`: rules one behind the other, for a language that the first part is cut off from.
* `viable_block`, `viable_statement`, `viable_program`: the rules of the grammar are viable.
-/

import BlockLanguage.Proofs.ProgramGrammar

namespace BlockLanguage

namespace ParseError.Cause

/-- Whether a cause is that a token is not what the grammar expects there. -/
def blamesToken : Cause → Bool
  | unexpectedToken _ _ | invalidCondition _ | mismatchedClosingName _ _ | reservedName _ => true
  | _ => false

/-- Whether a cause is that the input ends. -/
def isEndOfInput : Cause → Bool
  | unexpectedEndOfInput _ => true
  | _ => false

/-- Whether a cause lies in the lexemes up to the error, whatever is defined and however deep. -/
def isGrammatical (cause : Cause) : Bool := cause.blamesToken || cause.isEndOfInput

end ParseError.Cause

/-! ### The languages -/

/-- Whether lexemes spell a statement. -/
def Statement.IsSpelling (lexemes : List String) : Prop := ∃ s : Statement, s.lexemes = lexemes

/-- Whether lexemes spell a block. -/
def Block.IsSpelling (lexemes : List String) : Prop := ∃ body, Block.lexemes body = lexemes

/-- Whether lexemes spell a program with definitions of names that are not built in, be they
distinct or not and nested however deep. -/
def Program.IsSpelling (lexemes : List String) : Prop :=
  ∃ name definitions body, Context.Definable definitions ∧
    spelling name definitions body = lexemes

/-! ### The token that an error blames -/

/-- An error lies in the token behind lexemes that are ahead, and says that the input ends exactly
if that token is the mark of the end. -/
def Cursor.Blames (first : Cursor) (lexemes : List String) (error : ParseError) : Prop :=
  ∃ blame, first.Reads lexemes blame ∧ error.position = blame.position ∧
    error.cause.isEndOfInput = blame.atEnd

theorem Cursor.Blames.behind {first second : Cursor} {lexemes more : List String}
    {error : ParseError} (blames : second.Blames more error)
    (reads : first.Reads lexemes second) : first.Blames (lexemes ++ more) error := by
  obtain ⟨blame, further, position, ended⟩ := blames
  exact ⟨blame, reads.trans further, position, ended⟩

theorem Cursor.blames_error {first : Cursor} {cause : ParseError.Cause} {help : Option String}
    (ended : cause.isEndOfInput = first.atEnd) : first.Blames [] (first.error cause help) :=
  ⟨first, .refl first, rfl, ended⟩

theorem Cursor.blames_unexpected (first : Cursor) (expected : String) :
    first.Blames [] (first.unexpected expected) := by
  unfold unexpected
  cases ended : first.atEnd with
  | true => exact blames_error ended.symm
  | false => exact blames_error ended.symm

namespace Rule

variable {α β : Type}

/-- What a rule reads belongs to a language, and where it refuses, what it has read is the beginning
of a member. -/
structure Viable (rule : Rule α) (language : α → List String → Prop) : Prop where
  inhabited : ∃ value lexemes, language value lexemes
  read : ∀ {first last value}, first.Marked → rule.run first = .ok (value, last) →
    ∃ lexemes, first.Reads lexemes last ∧ language value lexemes
  refused : ∀ {first stop}, first.Marked → rule.run first = .error stop →
    stop.error.cause.isGrammatical = true →
      ∃ lexemes more value, first.Blames lexemes stop.error ∧ language value (lexemes ++ more)

variable {language : α → List String → Prop}

theorem Viable.imp {rule : Rule α} {language' : α → List String → Prop}
    (viable : rule.Viable language)
    (belongs : ∀ value lexemes, language value lexemes → language' value lexemes) :
    rule.Viable language' where
  inhabited := by
    obtain ⟨value, lexemes, member⟩ := viable.inhabited
    exact ⟨value, lexemes, belongs _ _ member⟩
  read marked read := by
    obtain ⟨lexemes, reads, member⟩ := viable.read marked read
    exact ⟨lexemes, reads, belongs _ _ member⟩
  refused marked refused grammatical := by
    obtain ⟨lexemes, more, value, blames, member⟩ := viable.refused marked refused grammatical
    exact ⟨lexemes, more, value, blames, belongs _ _ member⟩

theorem viable_pure {value : α} (member : language value []) :
    (pure value : Rule α).Viable language where
  inhabited := ⟨value, [], member⟩
  read _ read := by
    cases read
    exact ⟨[], .refl _, member⟩
  refused _ refused := by cases refused

/-- A rule that always refuses is viable for every language with members, if it blames the token in
front. -/
theorem viable_refuse {error : Cursor → ParseError}
    (inhabited : ∃ value lexemes, language value lexemes)
    (blames : ∀ first, (error first).cause.isGrammatical = true → first.Blames [] (error first)) :
    (refuse error : Rule α).Viable language where
  inhabited := inhabited
  read _ read := by cases read
  refused {first stop} _ refused grammatical := by
    cases refused
    obtain ⟨value, lexemes, member⟩ := inhabited
    exact ⟨[], lexemes, value, blames first grammatical, member⟩

theorem viable_unexpected {expected : String}
    (inhabited : ∃ value lexemes, language value lexemes) :
    (unexpected expected : Rule α).Viable language :=
  viable_refuse inhabited fun first _ => first.blames_unexpected expected

/-- **Rules one behind the other are viable** for a language if the second is viable for what the
language requires behind the members of the first. -/
theorem Viable.bind {rule : Rule α} {next : α → Rule β} {language' : β → List String → Prop}
    (viable : rule.Viable language)
    (behind : ∀ {value lexemes}, language value lexemes →
      (next value).Viable fun result more => language' result (lexemes ++ more)) :
    (rule >>= next).Viable language' where
  inhabited := by
    obtain ⟨value, lexemes, member⟩ := viable.inhabited
    obtain ⟨result, more, whole⟩ := (behind member).inhabited
    exact ⟨result, lexemes ++ more, whole⟩
  read {first last result} marked read := by
    obtain ⟨value, rest, readFirst, readNext⟩ := run_bind_eq_ok_iff.mp read
    obtain ⟨lexemes, reads, member⟩ := viable.read marked readFirst
    obtain ⟨more, further, whole⟩ := (behind member).read (reads.marked marked) readNext
    exact ⟨lexemes ++ more, reads.trans further, whole⟩
  refused {first stop} marked refused grammatical := by
    rcases run_bind_eq_error_iff.mp refused with here | ⟨value, rest, readFirst, refusedNext⟩
    · obtain ⟨lexemes, more, value, blames, member⟩ := viable.refused marked here grammatical
      obtain ⟨result, others, whole⟩ := (behind member).inhabited
      rw [List.append_assoc] at whole
      exact ⟨lexemes, more ++ others, result, blames, whole⟩
    · obtain ⟨lexemes, reads, member⟩ := viable.read marked readFirst
      obtain ⟨seen, more, result, blames, whole⟩ :=
        (behind member).refused (reads.marked marked) refusedNext grammatical
      rw [← List.append_assoc] at whole
      exact ⟨lexemes ++ seen, more, result, blames.behind reads, whole⟩

/-- A rule whose values are spelled in one way is followed by a rule for what is required behind. -/
theorem Viable.bind_spelled {rule : Rule α} {spell : α → List String} {next : α → Rule β}
    {language' : β → List String → Prop}
    (viable : rule.Viable fun value lexemes => spell value = lexemes)
    (behind : ∀ value, (next value).Viable fun result more =>
      language' result (spell value ++ more)) :
    (rule >>= next).Viable language' := by
  refine viable.bind fun {value _} spelled => ?_
  rw [← spelled]
  exact behind value

/-- A choice by the cursor is viable if both of its sides are. -/
theorem Viable.here_ite {goesOn : Cursor → Bool} {rule other : Rule α}
    (viable : rule.Viable language) (viableOther : other.Viable language) :
    Rule.Viable (do if goesOn (← here) then rule else other) language where
  inhabited := viable.inhabited
  read {first last value} marked read := by
    rw [run_bind_of_ok (run_here first)] at read
    split at read
    · exact viable.read marked read
    · exact viableOther.read marked read
  refused {first stop} marked refused grammatical := by
    rw [run_bind_of_ok (run_here first)] at refused
    split at refused
    · exact viable.refused marked refused grammatical
    · exact viableOther.refused marked refused grammatical

/-! ### Repetitions -/

section Repetition

variable {goesOn : Cursor → Bool}

section Collect

variable {rule : Rule α} {spell : α → List String}
  (viable : rule.Viable fun value lexemes => spell value = lexemes)
  (progress : Progresses goesOn rule)
include viable

private theorem reads_collectFrom {first last : Cursor} {values : List α} (marked : first.Marked)
    (read : collectFrom goesOn rule progress first = .ok (values, last)) :
    first.Reads (values.flatMap spell) last := by
  induction values generalizing first with
  | nil =>
    rw [((collectFrom_eq_ok_nil_iff goesOn rule progress).mp read).2]
    exact .refl first
  | cons value more ih =>
    obtain ⟨-, rest, readFirst, readMore⟩ :=
      (collectFrom_eq_ok_cons_iff goesOn rule progress).mp read
    obtain ⟨_, reads, rfl⟩ := viable.read marked readFirst
    rw [List.flatMap_cons]
    exact reads.trans (ih (reads.marked marked) readMore)

private theorem blames_collectFrom {first : Cursor} {stop : Stop} (marked : first.Marked)
    (refused : collectFrom goesOn rule progress first = .error stop)
    (grammatical : stop.error.cause.isGrammatical = true) :
    ∃ lexemes more, ∃ values : List α, first.Blames lexemes stop.error ∧
      values.flatMap spell = lexemes ++ more := by
  obtain ⟨again, here | ⟨value, rest, read, behind⟩⟩ :=
    (collectFrom_eq_error_iff goesOn rule progress).mp refused
  · obtain ⟨lexemes, more, value, blames, spelled⟩ := viable.refused marked here grammatical
    refine ⟨lexemes, more, [value], blames, ?_⟩
    rw [List.flatMap_singleton, spelled]
  · have shorter := progress _ _ _ again read
    obtain ⟨_, reads, rfl⟩ := viable.read marked read
    obtain ⟨lexemes, more, values, blames, spelled⟩ :=
      blames_collectFrom (reads.marked marked) behind grammatical
    refine ⟨spell value ++ lexemes, more, value :: values, blames.behind reads, ?_⟩
    rw [List.flatMap_cons, spelled, List.append_assoc]
termination_by first.live.length

theorem Viable.collect :
    (collect goesOn rule progress).Viable fun values lexemes => values.flatMap spell = lexemes where
  inhabited := ⟨[], _, rfl⟩
  read marked read := ⟨_, reads_collectFrom viable progress marked read, rfl⟩
  refused marked refused grammatical :=
    blames_collectFrom viable progress marked refused grammatical

end Collect

section Iterate

variable {rule : α → Rule α} {pieces : List String → Prop}
  (viable : ∀ value, (rule value).Viable fun _ lexemes => pieces lexemes)
  (progress : ∀ value, Progresses goesOn (rule value))
include viable

private theorem reads_iterateFrom (value : α) {first last : Cursor} {result : α}
    (marked : first.Marked)
    (read : iterateFrom goesOn rule progress value first = .ok (result, last)) :
    ∃ rounds : List (List String), first.Reads rounds.flatten last ∧
      ∀ round ∈ rounds, pieces round := by
  rcases (iterateFrom_eq_ok_iff goesOn rule progress).mp read with
    ⟨-, -, rfl⟩ | ⟨again, next, rest, readFirst, behind⟩
  · exact ⟨[], .refl _, List.forall_mem_nil _⟩
  · have shorter := progress _ _ _ _ again readFirst
    obtain ⟨lexemes, reads, piece⟩ := (viable value).read marked readFirst
    obtain ⟨rounds, readsMore, others⟩ := reads_iterateFrom next (reads.marked marked) behind
    refine ⟨lexemes :: rounds, ?_, List.forall_mem_cons.mpr ⟨piece, others⟩⟩
    rw [List.flatten_cons]
    exact reads.trans readsMore
termination_by first.live.length

private theorem blames_iterateFrom (value : α) {first : Cursor} {stop : Stop}
    (marked : first.Marked)
    (refused : iterateFrom goesOn rule progress value first = .error stop)
    (grammatical : stop.error.cause.isGrammatical = true) :
    ∃ lexemes more, ∃ rounds : List (List String), first.Blames lexemes stop.error ∧
      rounds.flatten = lexemes ++ more ∧ ∀ round ∈ rounds, pieces round := by
  obtain ⟨again, here | ⟨next, rest, read, behind⟩⟩ :=
    (iterateFrom_eq_error_iff goesOn rule progress).mp refused
  · obtain ⟨lexemes, more, _, blames, piece⟩ := (viable value).refused marked here grammatical
    refine ⟨lexemes, more, [lexemes ++ more], blames, ?_, List.forall_mem_singleton.mpr piece⟩
    rw [List.flatten_cons, List.flatten_nil, List.append_nil]
  · have shorter := progress _ _ _ _ again read
    obtain ⟨seen, reads, piece⟩ := (viable value).read marked read
    obtain ⟨lexemes, more, rounds, blames, spelled, others⟩ :=
      blames_iterateFrom next (reads.marked marked) behind grammatical
    refine ⟨seen ++ lexemes, more, seen :: rounds, blames.behind reads, ?_,
      List.forall_mem_cons.mpr ⟨piece, others⟩⟩
    rw [List.flatten_cons, spelled, List.append_assoc]
termination_by first.live.length

theorem Viable.iterate (value : α) :
    (iterate goesOn rule progress value).Viable fun _ lexemes =>
      ∃ rounds : List (List String), rounds.flatten = lexemes ∧ ∀ round ∈ rounds, pieces round where
  inhabited := ⟨value, [], [], rfl, List.forall_mem_nil _⟩
  read marked read := by
    obtain ⟨rounds, reads, others⟩ := reads_iterateFrom viable progress value marked read
    exact ⟨_, reads, rounds, rfl, others⟩
  refused marked refused grammatical := by
    obtain ⟨lexemes, more, rounds, blames, spelled, others⟩ :=
      blames_iterateFrom viable progress value marked refused grammatical
    exact ⟨lexemes, more, value, blames, rounds, spelled, others⟩

end Iterate

end Repetition

end Rule

namespace Grammar

open Rule

/-! ### Single tokens -/

theorem viable_keyword (lexeme : String) (listed : lexeme ∈ Word.keywords := by decide) :
    (keyword lexeme).Viable fun _ lexemes => [lexeme] = lexemes where
  inhabited := ⟨(), _, rfl⟩
  read marked read := ⟨_, (keyword_eq_ok_iff marked listed).mp read, rfl⟩
  refused {first stop} _ refused _ := by
    rw [run_keyword] at refused
    split at refused
    · cases refused
    · cases refused
      exact ⟨[], [lexeme], (), first.blames_unexpected _, rfl⟩

theorem viable_optional (lexeme : String) (listed : lexeme ∈ Word.keywords := by decide) :
    (optional lexeme).Viable fun found lexemes =>
      (if found then [lexeme] else []) = lexemes where
  inhabited := ⟨true, _, rfl⟩
  read {first last found} marked read := by
    cases found with
    | true => exact ⟨_, (optional_eq_ok_true_iff marked listed).mp read, rfl⟩
    | false =>
      rw [(optional_eq_ok_false_iff.mp read).2]
      exact ⟨_, .refl first, rfl⟩
  refused {first stop} _ refused _ := by
    rw [run_optional] at refused
    split at refused <;> cases refused

theorem exists_identifier : ∃ name : Identifier, Word.isPrimitive name.text = false :=
  ⟨⟨"a", by decide +kernel⟩, by decide +kernel⟩

theorem viable_identifier : identifier.Viable fun name lexemes => [name.text] = lexemes where
  inhabited := by
    obtain ⟨name, -⟩ := exists_identifier
    exact ⟨name, _, rfl⟩
  read marked read := ⟨_, (identifier_eq_ok_iff marked).mp read, rfl⟩
  refused {first stop} _ refused _ := by
    obtain ⟨name, -⟩ := exists_identifier
    rw [run_identifier] at refused
    split at refused
    · cases refused
    · cases refused
      exact ⟨[], [name.text], name, first.blames_unexpected _, rfl⟩

theorem viable_condition : condition.Viable fun test lexemes => [test.text] = lexemes where
  inhabited := ⟨.always, _, rfl⟩
  read _ read := ⟨_, condition_eq_ok_iff.mp read, rfl⟩
  refused {first stop} _ refused _ := by
    rw [run_condition] at refused
    split at refused
    · cases refused
      exact ⟨[], _, .always, first.blames_unexpected _, rfl⟩
    · next more =>
      split at refused
      · cases refused
      · cases refused
        exact ⟨[], _, .always, Cursor.blames_error (eq_false_of_ne_true more).symm, rfl⟩

theorem viable_closingName (name : Identifier) :
    (closingName name.text).Viable fun _ lexemes => [name.text] = lexemes where
  inhabited := ⟨(), _, rfl⟩
  read marked read := ⟨_, (closingName_eq_ok_iff marked).mp read, rfl⟩
  refused {first stop} marked refused _ := by
    rw [run_closingName] at refused
    split at refused
    · cases refused
    · split at refused
      · next named =>
        cases refused
        -- The mark of the end is no identifier, so the input does not end here.
        have more : first.atEnd = false := by
          refine eq_false_of_ne_true fun ended => ?_
          rw [marked.front_lexeme ended, Word.isIdentifier_endOfInputLexeme] at named
          cases named
        exact ⟨[], _, (), Cursor.blames_error more.symm, rfl⟩
      · cases refused
        exact ⟨[], _, (), first.blames_unexpected _, rfl⟩

theorem viable_endOfInput : endOfInput.Viable fun _ lexemes => [] = lexemes where
  inhabited := ⟨(), _, rfl⟩
  read {first last _} _ read := by
    obtain ⟨-, rfl⟩ := endOfInput_eq_ok_iff.mp read
    exact ⟨[], .refl _, rfl⟩
  refused {first stop} _ refused _ := by
    rw [run_endOfInput] at refused
    split at refused
    · cases refused
    · cases refused
      exact ⟨[], [], (), first.blames_unexpected _, rfl⟩

theorem viable_whole {α : Type} {rule : Rule α} {language : α → List String → Prop}
    (viable : rule.Viable language) : (whole rule).Viable language := by
  refine viable.bind fun {value lexemes} member => viable_endOfInput.bind_spelled fun _ => ?_
  refine viable_pure ?_
  rw [List.append_nil, List.append_nil]
  exact member

/-! ### Statements and blocks -/

section Statement

variable {nested : Rule Block}
  (viable : nested.Viable fun body lexemes => Block.lexemes body = lexemes)
include viable

theorem viable_ifStatement :
    (ifStatement nested).Viable fun s lexemes => s.lexemes = lexemes := by
  refine (viable_keyword "IF").bind_spelled fun _ => ?_
  refine viable_condition.bind_spelled fun test => ?_
  refine (viable_keyword "THEN").bind_spelled fun _ => ?_
  refine viable.bind_spelled fun thenBody => ?_
  refine (viable_optional "ELSE").bind_spelled fun more => ?_
  cases more with
  | false =>
    refine (viable_keyword "END").bind_spelled fun _ => ?_
    refine (viable_keyword "IF").bind_spelled fun _ => ?_
    exact viable_pure (by simp [Statement.lexemes])
  | true =>
    refine viable.bind_spelled fun elseBody => ?_
    refine (viable_keyword "END").bind_spelled fun _ => ?_
    refine (viable_keyword "IF").bind_spelled fun _ => ?_
    exact viable_pure (by simp [Statement.lexemes])

theorem viable_whileStatement :
    (whileStatement nested).Viable fun s lexemes => s.lexemes = lexemes := by
  refine (viable_keyword "WHILE").bind_spelled fun _ => ?_
  refine viable_condition.bind_spelled fun test => ?_
  refine (viable_keyword "DO").bind_spelled fun _ => ?_
  refine viable.bind_spelled fun body => ?_
  refine (viable_keyword "END").bind_spelled fun _ => ?_
  refine (viable_keyword "WHILE").bind_spelled fun _ => ?_
  exact viable_pure (by simp [Statement.lexemes])

omit viable in
theorem viable_callStatement : callStatement.Viable fun s lexemes => s.lexemes = lexemes := by
  refine viable_identifier.bind_spelled fun name => ?_
  exact viable_pure (by simp [Statement.lexemes])

theorem viable_statementWith :
    (statementWith nested).Viable fun s lexemes => s.lexemes = lexemes := by
  have whenIf := viable_ifStatement viable
  have whenWhile := viable_whileStatement viable
  have whenOther : (unexpected "a statement" : Rule Statement).Viable
      fun s lexemes => s.lexemes = lexemes := viable_unexpected whenIf.inhabited
  refine ⟨whenIf.inhabited, fun {first _ _} marked read => ?_,
    fun {first _} marked refused grammatical => ?_⟩
  · rw [run_statementWith] at read
    split at read
    · exact whenIf.read marked read
    · split at read
      · exact whenWhile.read marked read
      · split at read
        · exact viable_callStatement.read marked read
        · exact whenOther.read marked read
  · rw [run_statementWith] at refused
    split at refused
    · exact whenIf.refused marked refused grammatical
    · split at refused
      · exact whenWhile.refused marked refused grammatical
      · split at refused
        · exact viable_callStatement.refused marked refused grammatical
        · exact whenOther.refused marked refused grammatical

theorem viable_blockWith :
    (blockWith nested).Viable fun body lexemes => Block.lexemes body = lexemes := by
  simp only [Block.lexemes_eq_flatMap]
  exact (viable_statementWith viable).collect (progresses_block nested)

end Statement

theorem viable_inner (limit levels : Nat) :
    (inner limit levels).Viable fun body lexemes => Block.lexemes body = lexemes := by
  induction levels with
  | zero => exact viable_refuse ⟨[], _, rfl⟩ fun _ grammatical =>
      absurd grammatical Bool.false_ne_true
  | succ levels ih => exact viable_blockWith ih

theorem viable_block (limit : Nat) :
    (block limit).Viable fun body lexemes => Block.lexemes body = lexemes :=
  viable_blockWith (viable_inner limit limit)

theorem viable_statement (limit : Nat) :
    (statement limit).Viable fun s lexemes => s.lexemes = lexemes :=
  viable_statementWith (viable_inner limit limit)

/-! ### Programs -/

open Program (definitionLexemes spelling)
open Context (Entries Definable)

/-- The lexemes of a definition, whatever it defines, of a name that is not built in. -/
def IsDefinition (lexemes : List String) : Prop :=
  ∃ entry : Identifier × Block, Word.isPrimitive entry.1.text = false ∧
    definitionLexemes entry = lexemes

/-- What is required behind the name of a definition. -/
private theorem viable_behindName (limit : Nat) (before : Context) (named : Cursor)
    (name : Identifier) (free : Word.isPrimitive name.text = false) :
    Rule.Viable
      (do keyword "IS"
          let body ← block limit
          keyword "END"
          closingName name.text
          if (before.find? name.text).isSome then
            Rule.refuse fun _ => named.error (.duplicateInstruction name.text) none
          else return before.put name body free)
      fun _ lexemes => IsDefinition ("INSTRUCTION" :: name.text :: lexemes) := by
  refine (viable_keyword "IS").bind_spelled fun _ => ?_
  refine (viable_block limit).bind_spelled fun body => ?_
  refine (viable_keyword "END").bind_spelled fun _ => ?_
  refine (viable_closingName name).bind_spelled fun _ => ?_
  have whole : IsDefinition ("INSTRUCTION" :: name.text ::
      (["IS"] ++ (Block.lexemes body ++ (["END"] ++ ([name.text] ++ []))))) :=
    ⟨(name, body), free, by simp [definitionLexemes]⟩
  split
  · exact viable_refuse ⟨before, [], whole⟩ fun _ grammatical =>
      absurd grammatical Bool.false_ne_true
  · exact viable_pure whole

theorem viable_definition (limit : Nat) (before : Context) :
    (definition limit before).Viable fun _ lexemes => IsDefinition lexemes := by
  refine (viable_keyword "INSTRUCTION").bind_spelled fun _ => ?_
  have tail := viable_behindName limit before
  -- Whatever name was expected, one that is not built in could stand there.
  obtain ⟨other, free⟩ := exists_identifier
  obtain ⟨after, more, member⟩ := (tail (.ofTokens []) other free).inhabited
  refine ⟨⟨after, other.text :: more, member⟩, fun {named _ _} marked read => ?_,
    fun {named _} marked refused grammatical => ?_⟩
  · rw [run_bind_of_ok (run_here named)] at read
    obtain ⟨name, rest, readName, behind⟩ := run_bind_eq_ok_iff.mp read
    have reads := (identifier_eq_ok_iff marked).mp readName
    split at behind
    · next free =>
      obtain ⟨_, further, whole⟩ := (tail named name free).read (reads.marked marked) behind
      exact ⟨_, reads.trans further, whole⟩
    · cases behind
  · rw [run_bind_of_ok (run_here named)] at refused
    rcases run_bind_eq_error_iff.mp refused with here | ⟨name, rest, readName, behind⟩
    · rw [run_identifier] at here
      split at here
      · cases here
      · cases here
        exact ⟨[], other.text :: more, after, named.blames_unexpected _, member⟩
    · have reads := (identifier_eq_ok_iff marked).mp readName
      split at behind
      · next free =>
        obtain ⟨_, others, value, blames, whole⟩ :=
          (tail named name free).refused (reads.marked marked) behind grammatical
        exact ⟨_, others, value, blames.behind reads, whole⟩
      · cases behind
        exact ⟨[], other.text :: more, after, Cursor.blames_error reads.atEnd_eq.symm, member⟩

/-- Lexemes of definitions, one behind the other, are those of a list of definitions. -/
theorem exists_definitions {rounds : List (List String)}
    (each : ∀ round ∈ rounds, IsDefinition round) :
    ∃ definitions, Definable definitions ∧
      definitions.flatMap definitionLexemes = rounds.flatten := by
  induction rounds with
  | nil => exact ⟨[], List.forall_mem_nil _, rfl⟩
  | cons round more ih =>
    obtain ⟨⟨entry, free, spelled⟩, others⟩ := List.forall_mem_cons.mp each
    obtain ⟨definitions, definable, spelledMore⟩ := ih others
    refine ⟨entry :: definitions, List.forall_mem_cons.mpr ⟨free, definable⟩, ?_⟩
    rw [List.flatMap_cons, List.flatten_cons, spelled, spelledMore]

theorem viable_definitions (limit : Nat) :
    (definitions limit).Viable fun _ lexemes => ∃ rounds : List (List String),
      rounds.flatten = lexemes ∧ ∀ round ∈ rounds, IsDefinition round :=
  Viable.iterate (viable_definition limit) (progresses_definition limit) .empty

theorem viable_program (limit : Nat) :
    (program limit).Viable fun _ lexemes => Program.IsSpelling lexemes := by
  refine (viable_keyword "PROGRAM").bind_spelled fun _ => ?_
  refine viable_identifier.bind_spelled fun name => ?_
  refine (viable_keyword "IS").bind_spelled fun _ => ?_
  have tail : Rule.Viable
      (do let context ← definitions limit
          keyword "BEGIN"
          let body ← block limit
          keyword "END"
          closingName name.text
          endOfInput
          return (⟨name, context, body⟩ : Program))
      fun _ lexemes => Program.IsSpelling ("PROGRAM" :: name.text :: "IS" :: lexemes) := by
    refine (viable_definitions limit).bind ?_
    rintro context _ ⟨rounds, rfl, each⟩
    obtain ⟨definitions, definable, spelled⟩ := exists_definitions each
    refine (viable_keyword "BEGIN").bind_spelled fun _ => ?_
    refine (viable_block limit).bind_spelled fun body => ?_
    refine (viable_keyword "END").bind_spelled fun _ => ?_
    refine (viable_closingName name).bind_spelled fun _ => ?_
    refine viable_endOfInput.bind_spelled fun _ => ?_
    refine viable_pure ⟨name, definitions, body, definable, ?_⟩
    rw [← spelled]
    simp [spelling]
  exact tail.here_ite (viable_unexpected tail.inhabited)

end Grammar

end BlockLanguage
