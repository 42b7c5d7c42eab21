/-
**Every way in which a parse is refused.**

Seen from the cursor where a rule began, its error lies in a token ahead, and there are few ways
how: the grammar expects another token there; a text stands there that is no condition, or another
name than the one to be closed; it names a definition that cannot be made; or it is the first token
of a block, behind the THEN or DO that opens one level too many.

* `FailsBy.bind`, `FailsBy.collect`, `FailsBy.iterate`: rules that are put together.
* `BlockFault`, `ProgramFault`: the ways. For a level too many they count the levels that were
  opened before it, each by a THEN or DO of its own.
* `failsBy_statement`, `failsBy_block`, `failsBy_program`: no rule is refused in another way.
-/

import BlockLanguage.Grammar.Program
import BlockLanguage.Proofs.Locality

namespace BlockLanguage

/-! ### Rules put together -/

/-- Ways to be refused, seen from a cursor; what happens behind another cursor is seen from before
it as well. -/
structure Faults where
  Holds : Cursor → ParseError → Prop
  before : ∀ {first second : Cursor} {error : ParseError}, first.Reaches second →
    Holds second error → Holds first error

/-- The same ways, always seen from one cursor that the rule begins behind. -/
def Faults.seenFrom (faults : Faults) (origin : Cursor) : Faults where
  Holds first error := origin.Reaches first → faults.Holds origin error
  before reaches holds ahead := holds (ahead.trans reaches)

namespace Rule

variable {α β : Type} {faults : Faults}

/-- A rule is refused only in some of the ways. -/
def FailsBy (rule : Rule α) (faults : Faults) : Prop :=
  ∀ first stop, rule.run first = .error stop → faults.Holds first stop.error

theorem failsBy_pure (value : α) : (pure value : Rule α).FailsBy faults := by
  intro first stop refused
  cases refused

theorem failsBy_here : here.FailsBy faults := by
  intro first stop refused
  cases refused

theorem FailsBy.bind {rule : Rule α} {next : α → Rule β} (fails : rule.FailsBy faults)
    (failsNext : ∀ value, (next value).FailsBy faults) : (rule >>= next).FailsBy faults := by
  intro first stop refused
  rcases run_bind_eq_error_iff.mp refused with here | ⟨value, rest, read, behind⟩
  · exact fails first stop here
  · exact faults.before (rule.forward read) (failsNext value rest stop behind)

/-- A rule that is refused in some of the ways is refused in them as seen from before it. -/
theorem FailsBy.seenFrom {rule : Rule α} (fails : rule.FailsBy faults) (origin : Cursor) :
    rule.FailsBy (faults.seenFrom origin) :=
  fun first stop refused reaches => faults.before reaches (fails first stop refused)

theorem holds_of_seenFrom {rule : Rule α} {origin first : Cursor} {stop : Stop}
    (refused : rule.run first = .error stop) (reaches : origin.Reaches first)
    (fails : rule.FailsBy (faults.seenFrom origin)) : faults.Holds origin stop.error :=
  fails first stop refused reaches

section Repetition

variable {goesOn : Cursor → Bool}

private theorem failsBy_collectFrom {rule : Rule α} (fails : rule.FailsBy faults)
    (progress : Progresses goesOn rule) {first : Cursor} {stop : Stop}
    (refused : collectFrom goesOn rule progress first = .error stop) :
    faults.Holds first stop.error := by
  obtain ⟨again, here | ⟨value, rest, read, behind⟩⟩ :=
    (collectFrom_eq_error_iff goesOn rule progress).mp refused
  · exact fails first stop here
  · have shorter := progress _ _ _ again read
    exact faults.before (rule.forward read) (failsBy_collectFrom fails progress behind)
termination_by first.live.length

theorem FailsBy.collect {rule : Rule α} (fails : rule.FailsBy faults)
    (progress : Progresses goesOn rule) : (collect goesOn rule progress).FailsBy faults :=
  fun _ _ refused => failsBy_collectFrom fails progress refused

private theorem failsBy_iterateFrom {rule : α → Rule α}
    (fails : ∀ value, (rule value).FailsBy faults)
    (progress : ∀ value, Progresses goesOn (rule value)) (value : α) {first : Cursor} {stop : Stop}
    (refused : iterateFrom goesOn rule progress value first = .error stop) :
    faults.Holds first stop.error := by
  obtain ⟨again, here | ⟨next, rest, read, behind⟩⟩ :=
    (iterateFrom_eq_error_iff goesOn rule progress).mp refused
  · exact fails value first stop here
  · have shorter := progress _ _ _ _ again read
    exact faults.before ((rule value).forward read)
      (failsBy_iterateFrom fails progress next behind)
termination_by first.live.length

theorem FailsBy.iterate {rule : α → Rule α} (fails : ∀ value, (rule value).FailsBy faults)
    (progress : ∀ value, Progresses goesOn (rule value)) (value : α) :
    (iterate goesOn rule progress value).FailsBy faults :=
  fun _ _ refused => failsBy_iterateFrom fails progress value refused

end Repetition

end Rule

/-! ### The ways -/

/-- Whether a token opens a block inside an IF or WHILE. -/
def Token.opensBlock (token : Token) : Bool := token.lexeme = "THEN" || token.lexeme = "DO"

namespace Cursor

variable {first second : Cursor}

/-- Where more is ahead, an advance passes the token in front. -/
theorem passes_front (more : first.atEnd = false) : first.Passes [first.front] first.advance := by
  have step := passes_advance first
  obtain ⟨position, live, sentinel, beyond, live_open, sentinel_closes⟩ := first
  cases live with
  | nil => cases more
  | cons token behind => exact step

/-- Nothing more comes behind the end. -/
theorem Reaches.atEnd_eq_false (reaches : first.Reaches second) (more : second.atEnd = false) :
    first.atEnd = false := by
  refine eq_false_of_ne_true fun ended => ?_
  have shorter := reaches.length_le
  rw [List.isEmpty_iff.mp ended, List.length_nil, Nat.le_zero, List.length_eq_zero_iff] at shorter
  rw [atEnd, shorter] at more
  cases more

end Cursor

/-- How statements and blocks are refused where so many levels are left. -/
inductive BlockFault (limit levels : Nat) (first : Cursor) : ParseError → Prop
  | unexpected {blame : Cursor} (ahead : first.Reaches blame) (expected : String) :
    BlockFault limit levels first (blame.unexpected expected)
  | invalidCondition {blame : Cursor} (ahead : first.Reaches blame) (more : blame.atEnd = false)
    (help : Option String) :
    BlockFault limit levels first (blame.error (.invalidCondition blame.front.lexeme) help)
  | tooDeep {opening : Cursor} {passed : List Token} (passes : first.Passes passed opening)
    (opens : opening.front.opensBlock = true) (deep : levels ≤ passed.countP (·.opensBlock)) :
    BlockFault limit levels first (opening.advance.error (.nestingTooDeep limit) none)

/-- How programs and their definitions are refused. -/
inductive ProgramFault (limit : Nat) (first : Cursor) : ParseError → Prop
  | inBlock {error : ParseError} (fault : BlockFault limit limit first error) :
    ProgramFault limit first error
  | mismatchedClosingName {blame : Cursor} (ahead : first.Reaches blame) {expected : String}
    (named : Word.isIdentifier blame.front.lexeme = true)
    (different : blame.front.lexeme ≠ expected) (help : Option String) :
    ProgramFault limit first
      (blame.error (.mismatchedClosingName expected blame.front.lexeme) help)
  | reservedName {opening : Cursor} (ahead : first.Reaches opening)
    (opens : opening.front.lexeme = "INSTRUCTION")
    (named : Word.isIdentifier opening.advance.front.lexeme = true) :
    ProgramFault limit first
      (opening.advance.error (.reservedName opening.advance.front.lexeme) none)
  | duplicateInstruction {opening : Cursor} (ahead : first.Reaches opening)
    (opens : opening.front.lexeme = "INSTRUCTION")
    (named : Word.isIdentifier opening.advance.front.lexeme = true) :
    ProgramFault limit first
      (opening.advance.error (.duplicateInstruction opening.advance.front.lexeme) none)

section Before

variable {limit levels : Nat} {first second : Cursor} {error : ParseError}

theorem BlockFault.before (reaches : first.Reaches second)
    (fault : BlockFault limit levels second error) : BlockFault limit levels first error := by
  cases fault with
  | unexpected ahead expected => exact .unexpected (reaches.trans ahead) expected
  | invalidCondition ahead more help => exact .invalidCondition (reaches.trans ahead) more help
  | tooDeep passes opens deep =>
    obtain ⟨passed, before⟩ := reaches
    refine .tooDeep (before.trans passes) opens ?_
    rw [List.countP_append]
    exact Nat.le_add_left_of_le deep

/-- Seen from the THEN or DO that opens a block, one level more is used up. -/
theorem BlockFault.opened (opens : first.front.opensBlock = true) (more : first.atEnd = false)
    (reaches : first.advance.Reaches second) (fault : BlockFault limit levels second error) :
    BlockFault limit (levels + 1) first error := by
  have step := first.passes_front more
  cases fault with
  | unexpected ahead expected =>
    exact .unexpected (.trans ⟨_, step⟩ (reaches.trans ahead)) expected
  | invalidCondition ahead more help =>
    exact .invalidCondition (.trans ⟨_, step⟩ (reaches.trans ahead)) more help
  | tooDeep passes opensToo deep =>
    obtain ⟨passed, before⟩ := reaches
    refine .tooDeep (step.trans (before.trans passes)) opensToo ?_
    rw [List.countP_append, List.countP_append, List.countP_singleton, if_pos opens]
    omega

theorem ProgramFault.before (reaches : first.Reaches second)
    (fault : ProgramFault limit second error) : ProgramFault limit first error := by
  cases fault with
  | inBlock fault => exact .inBlock (fault.before reaches)
  | mismatchedClosingName ahead named different help =>
    exact .mismatchedClosingName (reaches.trans ahead) named different help
  | reservedName ahead opens named => exact .reservedName (reaches.trans ahead) opens named
  | duplicateInstruction ahead opens named =>
    exact .duplicateInstruction (reaches.trans ahead) opens named

end Before

/-- The ways of statements and blocks. -/
def blockFaults (limit levels : Nat) : Faults := ⟨BlockFault limit levels, BlockFault.before⟩

/-- The ways of programs. -/
def programFaults (limit : Nat) : Faults := ⟨ProgramFault limit, ProgramFault.before⟩

/-! ### Refusals for names -/

/-- Whether a cause is that a name cannot be defined. -/
def ParseError.Cause.refusesName : Cause → Bool
  | duplicateInstruction _ | reservedName _ => true
  | _ => false

theorem Cursor.refusesName_unexpected (cursor : Cursor) (expected : String) :
    (cursor.unexpected expected).cause.refusesName = false := by
  rw [Cursor.unexpected]
  split <;> rfl

/-- No statement and no block is refused for the name of a definition. -/
theorem BlockFault.refusesName_eq_false {limit levels : Nat} {first : Cursor} {error : ParseError}
    (fault : BlockFault limit levels first error) : error.cause.refusesName = false := by
  cases fault with
  | unexpected ahead expected => exact Cursor.refusesName_unexpected _ expected
  | invalidCondition | tooDeep => rfl

namespace Grammar

open Rule

variable {limit levels : Nat}

/-! ### Single tokens -/

section Tokens

theorem failsBy_keyword (lexeme : String) :
    (keyword lexeme).FailsBy (blockFaults limit levels) := by
  intro first stop refused
  rw [run_keyword] at refused
  split at refused
  · cases refused
  · cases refused
    exact .unexpected (.refl first) _

theorem failsBy_optional (lexeme : String) :
    (optional lexeme).FailsBy (blockFaults limit levels) := by
  intro first stop refused
  rw [run_optional] at refused
  split at refused <;> cases refused

theorem failsBy_identifier : identifier.FailsBy (blockFaults limit levels) := by
  intro first stop refused
  rw [run_identifier] at refused
  split at refused
  · cases refused
  · cases refused
    exact .unexpected (.refl first) _

theorem failsBy_condition : condition.FailsBy (blockFaults limit levels) := by
  intro first stop refused
  rw [run_condition] at refused
  split at refused
  · cases refused
    exact .unexpected (.refl first) _
  · next more =>
    split at refused
    · cases refused
    · cases refused
      exact .invalidCondition (.refl first) (eq_false_of_ne_true more) _

theorem failsBy_endOfInput : endOfInput.FailsBy (blockFaults limit levels) := by
  intro first stop refused
  rw [run_endOfInput] at refused
  split at refused
  · cases refused
  · cases refused
    exact .unexpected (.refl first) _

theorem failsBy_closingName (name : String) :
    (closingName name).FailsBy (programFaults limit) := by
  intro first stop refused
  rw [run_closingName] at refused
  split at refused
  · cases refused
  · next different =>
    split at refused
    · next named =>
      cases refused
      exact .mismatchedClosingName (.refl first) named different _
    · cases refused
      exact .inBlock (.unexpected (.refl first) _)

theorem failsBy_whole {α : Type} {rule : Rule α} (fails : rule.FailsBy (blockFaults limit levels)) :
    (whole rule).FailsBy (blockFaults limit levels) :=
  fails.bind fun value => failsBy_endOfInput.bind fun _ => failsBy_pure value

end Tokens

/-! ### Statements and blocks -/

/-- How the rule for the blocks inside a statement is refused, seen from the THEN or DO that opens
them: directly behind it, and behind the block that it has read there. -/
structure InnerFails (limit levels : Nat) (nested : Rule Block) : Prop where
  atOnce : ∀ {opening stop}, opening.front.opensBlock = true →
    nested.run opening.advance = .error stop → BlockFault limit levels opening stop.error
  again : ∀ {opening body rest second stop}, opening.front.opensBlock = true →
    nested.run opening.advance = .ok (body, rest) → rest.Reaches second →
      nested.run second = .error stop → BlockFault limit levels opening stop.error

/-- The keywords that close an IF or WHILE. -/
theorem failsBy_closing (closes : String) (s : Statement) :
    (do keyword "END"; keyword closes; return s : Rule Statement).FailsBy
      (blockFaults limit levels) :=
  (failsBy_keyword _).bind fun _ => (failsBy_keyword _).bind fun _ => failsBy_pure s

section Statement

variable {nested : Rule Block} (inner : InnerFails limit levels nested)
include inner

/-- What is behind the condition of an IF or WHILE is refused as its blocks are, and as what is
behind the first of them. -/
theorem failsBy_opening {α : Type} {enters : String} {next : Block → Rule α}
    (opens : ∀ token : Token, token.lexeme = enters → token.opensBlock = true)
    (behind : ∀ {opening body rest stop}, opening.front.opensBlock = true →
      nested.run opening.advance = .ok (body, rest) → (next body).run rest = .error stop →
        BlockFault limit levels opening stop.error) :
    (do keyword enters; let body ← nested; next body : Rule α).FailsBy
      (blockFaults limit levels) := by
  intro first stop refused
  rcases run_bind_eq_error_iff.mp refused with here | ⟨_, rest, read, refused⟩
  · exact failsBy_keyword enters first stop here
  · rw [run_keyword] at read
    split at read
    · next stands =>
      cases read
      have opensHere := opens _ (stands_iff.mp stands)
      rcases run_bind_eq_error_iff.mp refused with here | ⟨body, rest, read, refused⟩
      · exact inner.atOnce opensHere here
      · exact behind opensHere read refused
    · cases read

theorem failsBy_ifStatement : (ifStatement nested).FailsBy (blockFaults limit levels) := by
  refine (failsBy_keyword _).bind fun _ => failsBy_condition.bind fun test => ?_
  refine failsBy_opening inner (fun token same => by simp [Token.opensBlock, same]) ?_
  intro opening thenBody rest stop opens read refused
  have reaches : opening.Reaches rest :=
    (Cursor.Reaches.advance opening).trans (nested.forward read)
  rcases run_bind_eq_error_iff.mp refused with here | ⟨more, behind, readElse, refused⟩
  · exact .before reaches (failsBy_optional _ _ _ here)
  · have further := (optional "ELSE").forward readElse
    split at refused
    · rcases run_bind_eq_error_iff.mp refused with here | ⟨elseBody, last, readBody, refused⟩
      · exact inner.again opens read further here
      · exact .before (reaches.trans (further.trans (nested.forward readBody)))
          (failsBy_closing _ _ _ _ refused)
    · exact .before (reaches.trans further) (failsBy_closing _ _ _ _ refused)

theorem failsBy_whileStatement : (whileStatement nested).FailsBy (blockFaults limit levels) := by
  refine (failsBy_keyword _).bind fun _ => failsBy_condition.bind fun test => ?_
  refine failsBy_opening inner (fun token same => by simp [Token.opensBlock, same]) ?_
  intro opening body rest stop opens read refused
  exact .before ((Cursor.Reaches.advance opening).trans (nested.forward read))
    (failsBy_closing _ _ _ _ refused)

theorem failsBy_statementWith : (statementWith nested).FailsBy (blockFaults limit levels) := by
  intro first stop refused
  rw [run_statementWith] at refused
  split at refused
  · exact failsBy_ifStatement inner _ _ refused
  · split at refused
    · exact failsBy_whileStatement inner _ _ refused
    · split at refused
      · exact (failsBy_identifier.bind fun _ => failsBy_pure _) _ _ refused
      · cases refused
        exact .unexpected (.refl first) _

theorem failsBy_blockWith : (blockWith nested).FailsBy (blockFaults limit levels) :=
  (failsBy_statementWith inner).collect (progresses_block nested)

end Statement

/-- A block that is refused has a token ahead. -/
theorem atEnd_eq_false_of_blockWith {nested : Rule Block} {first : Cursor} {stop : Stop}
    (refused : (blockWith nested).run first = .error stop) : first.atEnd = false := by
  obtain ⟨again, -⟩ := blockWith_eq_error_iff.mp refused
  refine eq_false_of_ne_true fun ended => ?_
  simp [blockGoesOn, ended] at again

/-- **One level is used up by every THEN or DO that opens a block.** -/
theorem innerFails_inner (limit levels : Nat) : InnerFails limit levels (inner limit levels) := by
  induction levels with
  | zero =>
    refine ⟨fun {opening stop} opens refused => ?_, fun _ read _ _ => ?_⟩
    · cases refused
      exact .tooDeep (.refl opening) opens (Nat.zero_le _)
    · cases read
  | succ levels ih =>
    -- Whatever is refused behind the THEN or DO lies further on than that token.
    have deeper : ∀ {opening second stop}, opening.front.opensBlock = true →
        opening.advance.Reaches second → (inner limit (levels + 1)).run second = .error stop →
          BlockFault limit (levels + 1) opening stop.error := by
      intro opening second stop opens reaches refused
      have more := atEnd_eq_false_of_blockWith refused
      have moreBefore := ((Cursor.Reaches.advance opening).trans reaches).atEnd_eq_false more
      exact .opened opens moreBefore reaches (failsBy_blockWith ih _ _ refused)
    exact ⟨fun opens refused => deeper opens (.refl _) refused,
      fun opens read further refused => deeper opens
        (((inner limit (levels + 1)).forward read).trans further) refused⟩

theorem failsBy_block (limit : Nat) : (block limit).FailsBy (blockFaults limit limit) :=
  failsBy_blockWith (innerFails_inner limit limit)

theorem failsBy_statement (limit : Nat) : (statement limit).FailsBy (blockFaults limit limit) :=
  failsBy_statementWith (innerFails_inner limit limit)

/-! ### Programs -/

/-- A rule that is refused as blocks are is refused as programs are. -/
theorem failsBy_program_of_block {α : Type} {rule : Rule α}
    (fails : rule.FailsBy (blockFaults limit limit)) : rule.FailsBy (programFaults limit) :=
  fun _ _ refused => .inBlock (fails _ _ refused)

theorem failsBy_definition (limit : Nat) (before : Context) :
    (definition limit before).FailsBy (programFaults limit) := by
  intro first stop refused
  rcases run_bind_eq_error_iff.mp refused with here | ⟨_, named, read, refused⟩
  · exact failsBy_program_of_block (failsBy_keyword _) _ _ here
  · rw [run_keyword] at read
    split at read
    · next stands =>
      cases read
      have opens := stands_iff.mp stands
      rw [run_bind_of_ok (run_here _)] at refused
      rcases run_bind_eq_error_iff.mp refused with here | ⟨name, rest, readName, refused⟩
      · exact .before (.advance first) (failsBy_program_of_block failsBy_identifier _ _ here)
      · -- Both errors of a definition lie in its name, behind which reading has gone on.
        have spelled : name.text = first.advance.front.lexeme := by
          rw [run_identifier] at readName
          split at readName
          · next found =>
            cases readName
            exact Identifier.ofText?_eq_some_iff.mp found
          · cases readName
        have named : Word.isIdentifier first.advance.front.lexeme = true := spelled ▸ name.valid
        have reaches := (Cursor.Reaches.advance first).trans (identifier.forward readName)
        refine holds_of_seenFrom refused reaches ?_
        split
        · refine (failsBy_program_of_block (failsBy_keyword _)).seenFrom first |>.bind fun _ => ?_
          refine (failsBy_program_of_block (failsBy_block limit)).seenFrom first |>.bind fun _ => ?_
          refine (failsBy_program_of_block (failsBy_keyword _)).seenFrom first |>.bind fun _ => ?_
          refine (failsBy_closingName _).seenFrom first |>.bind fun _ => ?_
          split
          · rintro _ _ ⟨⟩ _
            rw [spelled]
            exact ProgramFault.duplicateInstruction (.refl first) opens named
          · exact failsBy_pure _
        · rintro _ _ ⟨⟩ _
          rw [spelled]
          exact ProgramFault.reservedName (.refl first) opens named
    · cases read

theorem failsBy_definitions (limit : Nat) : (definitions limit).FailsBy (programFaults limit) :=
  FailsBy.iterate (failsBy_definition limit) (progresses_definition limit) .empty

theorem failsBy_program (limit : Nat) : (program limit).FailsBy (programFaults limit) := by
  have keywords : ∀ lexeme, (keyword lexeme).FailsBy (programFaults limit) :=
    fun lexeme => failsBy_program_of_block (failsBy_keyword lexeme)
  have named := @failsBy_program_of_block limit _ _ failsBy_identifier
  refine (keywords _).bind fun _ => named.bind fun name => ?_
  refine (keywords _).bind fun _ => failsBy_here.bind fun cursor => ?_
  split
  · refine (failsBy_definitions limit).bind fun context => (keywords _).bind fun _ => ?_
    refine (failsBy_program_of_block (failsBy_block limit)).bind fun body => ?_
    refine (keywords _).bind fun _ => (failsBy_closingName _).bind fun _ => ?_
    exact (failsBy_program_of_block failsBy_endOfInput).bind fun _ => failsBy_pure _
  · rintro first stop ⟨⟩
    exact .inBlock (.unexpected (.refl first) _)

end Grammar

end BlockLanguage
