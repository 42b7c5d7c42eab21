/-
**Every error describes the token that it lies in.**

An error names an index and a place, and most causes quote a lexeme. All of this is true of one
token: the index is its index among the completed tokens, the place is its place, what is quoted is
its lexeme, and only the end of the input is reported at the mark of the end, or a level too many.
Where the cause is about what the token before it opens, that token is there.

* `Cause.Fits`, `Describes`: what an error says of the tokens.
* `describes_of_fault`: no way of being refused says anything else.
* `parse_describes_token`: programs, statements, blocks, and whatever a session is asked.
-/

import BlockLanguage.Proofs.Faults
import BlockLanguage.Proofs.Suffix

namespace BlockLanguage

/-! ### What an error says -/

/-- What a cause says of the token that it lies in, and of the token before it, is true. -/
def ParseError.Cause.Fits (limit : Nat) (previous : Option Token) (token : Token) : Cause → Prop
  | unexpectedToken _ found => token.isEndOfInput = false ∧ found = token.lexeme
  | invalidCondition found => token.isEndOfInput = false ∧ found = token.lexeme
  | mismatchedClosingName expected found =>
    token.isEndOfInput = false ∧ found = token.lexeme ∧ Word.isIdentifier found = true ∧
      found ≠ expected
  | duplicateInstruction name =>
    token.isEndOfInput = false ∧ name = token.lexeme ∧
      ∃ opening, previous = some opening ∧ opening.lexeme = "INSTRUCTION"
  | reservedName name =>
    token.isEndOfInput = false ∧ name = token.lexeme ∧
      ∃ opening, previous = some opening ∧ opening.lexeme = "INSTRUCTION"
  | unexpectedEndOfInput _ => token.isEndOfInput = true
  | nestingTooDeep levels =>
    levels = limit ∧ ∃ opening, previous = some opening ∧
      (opening.lexeme = "THEN" ∨ opening.lexeme = "DO")

/-- An error lies in one of the completed tokens, not behind the first mark of the end, and says
what is true of it. -/
structure ParseError.Describes (limit : Nat) (tokens : List Token) (error : ParseError) :
    Prop where
  inside : error.position ≤ Token.firstMark tokens
  token : ∃ token, (Token.complete tokens)[error.position]? = some token ∧
    error.span = token.span ∧
      error.cause.Fits limit ((Token.complete tokens).take error.position).getLast? token
  atMark : error.position = Token.firstMark tokens →
    (∃ expected, error.cause = .unexpectedEndOfInput expected) ∨ error.cause = .nestingTooDeep limit

/-- Of a mark of the end two causes say something true. -/
theorem ParseError.Cause.Fits.of_isEndOfInput {limit : Nat} {previous : Option Token}
    {token : Token} {cause : Cause} (fits : cause.Fits limit previous token)
    (ended : token.isEndOfInput = true) :
    (∃ expected, cause = .unexpectedEndOfInput expected) ∨ cause = .nestingTooDeep limit := by
  have none : token.isEndOfInput ≠ false := by simp [ended]
  cases cause with
  | unexpectedEndOfInput expected => exact .inl ⟨expected, rfl⟩
  | nestingTooDeep levels => exact .inr (congrArg _ fits.1)
  | unexpectedToken _ _ | invalidCondition _ | duplicateInstruction _ | reservedName _
  | mismatchedClosingName _ _ => exact absurd fits.1 none

/-! ### The ways to be refused -/

section Fault

variable {limit : Nat} {tokens : List Token} {cursor : Cursor} {error : ParseError}

theorem Token.opensBlock_iff {token : Token} :
    token.opensBlock = true ↔ token.lexeme = "THEN" ∨ token.lexeme = "DO" := by
  simp [opensBlock]

/-- The lexeme of the mark is no identifier. -/
theorem Word.ne_endOfInputLexeme {lexeme : String} (named : isIdentifier lexeme = true) :
    lexeme ≠ endOfInputLexeme := by
  rintro rfl
  rw [isIdentifier_endOfInputLexeme] at named
  cases named

/-- Where the mark has its own lexeme, another lexeme in front is not at the end. -/
theorem Cursor.Marked.atEnd_eq_false {first : Cursor} (marked : first.Marked)
    (reaches : first.Reaches cursor) (different : cursor.front.lexeme ≠ endOfInputLexeme) :
    cursor.atEnd = false := by
  obtain ⟨passed, passes⟩ := reaches
  have markedHere := Reads.marked ⟨passed, passes, rfl⟩ marked
  exact eq_false_of_ne_true fun ended => different (markedHere.front_lexeme ended)

section Reached

variable (reached : (Cursor.ofTokens tokens).Reaches cursor)
include reached

/-- Behind an advance, the token before the cursor is the one that has been passed. -/
theorem Cursor.previous_advance (more : cursor.atEnd = false) :
    ((Token.complete tokens).take cursor.advance.position).getLast? = some cursor.front := by
  rw [(cursor.passes_front more).position, List.length_singleton, List.getLast?_take,
    if_neg (Nat.succ_ne_zero _), Nat.add_sub_cancel, getElem?_position reached]
  rfl

/-- Among the cursors in a list, the one at the first mark is at the end. -/
theorem Cursor.position_eq_firstMark_iff :
    cursor.position = Token.firstMark tokens ↔ cursor.atEnd = true := by
  obtain ⟨passed, passes⟩ := reached
  rw [firstMark_eq_length, passes.live, passes.position, position_ofTokens, List.length_append,
    Nat.zero_add, atEnd, List.isEmpty_iff, Nat.left_eq_add, List.length_eq_zero_iff]

/-- An error at a cursor describes the token in front of it if its cause does. -/
theorem describes_of_fits {cause : ParseError.Cause} {help : Option String}
    (fits : cause.Fits limit ((Token.complete tokens).take cursor.position).getLast?
      cursor.front) : (cursor.error cause help).Describes limit tokens where
  inside := Cursor.position_le_firstMark reached
  token := ⟨cursor.front, Cursor.getElem?_position reached, rfl, fits⟩
  atMark there := by
    refine fits.of_isEndOfInput ((Cursor.isEndOfInput_front cursor).trans ?_)
    rw [← Cursor.position_eq_firstMark_iff reached]
    exact there

/-- What the grammar does not expect is quoted, or is the end. -/
theorem describes_unexpected (expected : String) :
    (cursor.unexpected expected).Describes limit tokens := by
  rw [Cursor.unexpected]
  split
  · next ended =>
    exact describes_of_fits reached ((Cursor.isEndOfInput_front cursor).trans ended)
  · next more =>
    refine describes_of_fits reached ⟨?_, rfl⟩
    rw [Cursor.isEndOfInput_front]
    exact eq_false_of_ne_true more

end Reached

section Marked

variable (marked : (Cursor.ofTokens tokens).Marked)
include marked

theorem describes_of_blockFault {levels : Nat}
    (fault : BlockFault limit levels (Cursor.ofTokens tokens) error) :
    error.Describes limit tokens := by
  cases fault with
  | unexpected ahead expected => exact describes_unexpected ahead expected
  | invalidCondition ahead more help =>
    exact describes_of_fits ahead ⟨(Cursor.isEndOfInput_front _).trans more, rfl⟩
  | @tooDeep opening passed passes opens deep =>
    have opensHere := Token.opensBlock_iff.mp opens
    have listed : opening.front.lexeme ∈ Word.keywords := by
      rcases opensHere with same | same <;> rw [same] <;> decide
    have ahead : (Cursor.ofTokens tokens).Reaches opening := ⟨passed, passes⟩
    have more := marked.atEnd_eq_false ahead (Word.keyword_ne_endOfInputLexeme listed)
    exact describes_of_fits (ahead.trans (.advance opening))
      ⟨rfl, opening.front, Cursor.previous_advance ahead more, opensHere⟩

/-- An identifier behind INSTRUCTION is not at the end, and INSTRUCTION is before it. -/
theorem fits_name {opening : Cursor} (ahead : (Cursor.ofTokens tokens).Reaches opening)
    (opens : opening.front.lexeme = "INSTRUCTION")
    (named : Word.isIdentifier opening.advance.front.lexeme = true) :
    opening.advance.front.isEndOfInput = false ∧
      ∃ before, ((Token.complete tokens).take opening.advance.position).getLast? = some before ∧
        before.lexeme = "INSTRUCTION" := by
  have more := marked.atEnd_eq_false ahead
    (opens ▸ Word.keyword_ne_endOfInputLexeme (by decide : "INSTRUCTION" ∈ Word.keywords))
  have moreBehind := marked.atEnd_eq_false (ahead.trans (.advance opening))
    (Word.ne_endOfInputLexeme named)
  exact ⟨(Cursor.isEndOfInput_front _).trans moreBehind, opening.front,
    Cursor.previous_advance ahead more, opens⟩

/-- **No way of being refused says anything that is not true of the token.** -/
theorem describes_of_fault (fault : ProgramFault limit (Cursor.ofTokens tokens) error) :
    error.Describes limit tokens := by
  cases fault with
  | inBlock fault => exact describes_of_blockFault marked fault
  | mismatchedClosingName ahead named different help =>
    have more := marked.atEnd_eq_false ahead (Word.ne_endOfInputLexeme named)
    exact describes_of_fits ahead
      ⟨(Cursor.isEndOfInput_front _).trans more, rfl, named, different⟩
  | reservedName ahead opens named =>
    obtain ⟨more, previous⟩ := fits_name marked ahead opens named
    exact describes_of_fits (ahead.trans (.advance _)) ⟨more, rfl, previous⟩
  | duplicateInstruction ahead opens named =>
    obtain ⟨more, previous⟩ := fits_name marked ahead opens named
    exact describes_of_fits (ahead.trans (.advance _)) ⟨more, rfl, previous⟩

end Marked

end Fault

/-! ### Parses and sessions -/

theorem Session.run_of_ask_eq_error {session : Session} {request : Request} {stop : Stop}
    (refused : session.ask request = .error stop) :
    (request.rule session.options.maxNestingDepth).run session.cursor = .error stop := by
  rw [ask] at refused
  split at refused
  · next found =>
    cases refused
    exact found
  · cases refused

namespace Grammar

open Rule

/-- Behind a rule that is refused in some ways, an answer is made. -/
theorem failsBy_answer {α : Type} {limit : Nat} {rule : Rule α}
    (fails : rule.FailsBy (blockFaults limit limit)) (wrap : α → Session.Reply) :
    (rule >>= fun value => pure (wrap value)).FailsBy (programFaults limit) :=
  (failsBy_program_of_block fails).bind fun _ => failsBy_pure _

/-- Every request that is refused is refused in one of the ways. -/
theorem failsBy_request (limit : Nat) (request : Session.Request) :
    (request.rule limit).FailsBy (programFaults limit) := by
  cases request with
  | peek | advance | isAtEnd | checkKeyword | unexpected | remaining => rintro _ _ ⟨⟩
  | matchKeyword lexeme => exact failsBy_answer (failsBy_optional lexeme) _
  | consumeKeyword lexeme => exact failsBy_answer (failsBy_keyword lexeme) _
  | consumeIdentifier => exact failsBy_answer failsBy_identifier _
  | consumeCondition => exact failsBy_answer failsBy_condition _
  | consumeClosingName name => exact (failsBy_closingName name).bind fun _ => failsBy_pure _
  | expectEndOfInput => exact failsBy_answer failsBy_endOfInput _
  | statement => exact failsBy_answer (failsBy_statement limit) _
  | block => exact failsBy_answer (failsBy_block limit) _
  | program => exact (failsBy_program limit).bind fun _ => failsBy_pure _

end Grammar

section Parse

variable {options : Options} {tokens : List Token}
  (classified : ∀ token ∈ tokens, token.kind = .ofLexeme token.lexeme)
include classified

theorem Rule.describes_of_failsBy {α : Type} {limit : Nat} {rule : Rule α}
    (fails : rule.FailsBy (programFaults limit)) {error : ParseError}
    (failed : rule.parse tokens = .error error) : error.Describes limit tokens := by
  obtain ⟨stop, refused, rfl⟩ := Rule.parse_eq_error_iff.mp failed
  exact describes_of_fault (Cursor.marked_of_classified classified) (fails _ _ refused)

/-- **Every error describes the token that it lies in**, whatever is parsed, and whatever a session
has been asked before. -/
theorem parse_describes_token :
    (∀ error, Program.parse options tokens = .error error →
      error.Describes options.maxNestingDepth tokens) ∧
    (∀ error, Statement.parse options tokens = .error error →
      error.Describes options.maxNestingDepth tokens) ∧
    (∀ error, Block.parse options tokens = .error error →
      error.Describes options.maxNestingDepth tokens) ∧
    ∀ requests replies session request stop,
      (Session.start options tokens).askAll requests = .ok (replies, session) →
        session.ask request = .error stop →
          stop.error.Describes options.maxNestingDepth tokens := by
  refine ⟨fun error failed => ?_, fun error failed => ?_, fun error failed => ?_, ?_⟩
  · exact Rule.describes_of_failsBy classified (Grammar.failsBy_program _) failed
  · have fails := Grammar.failsBy_whole (Grammar.failsBy_statement options.maxNestingDepth)
    exact Rule.describes_of_failsBy classified (Grammar.failsBy_program_of_block fails) failed
  · have fails := Grammar.failsBy_whole (Grammar.failsBy_block options.maxNestingDepth)
    exact Rule.describes_of_failsBy classified (Grammar.failsBy_program_of_block fails) failed
  · intro requests replies session request stop asked refused
    obtain ⟨reached, kept⟩ := Session.askAll_reaches asked
    have fault := Grammar.failsBy_request _ request _ stop (Session.run_of_ask_eq_error refused)
    rw [kept] at fault
    exact describes_of_fault (Cursor.marked_of_classified classified) (fault.before reached)

end Parse

/-- Where no level is left, the mark behind DO is refused, though a call follows it. -/
theorem parse_describes_token_at_mark :
    ∃ tokens error, tokens = Token.ofLexemes ["WHILE", "true", "DO", endOfInputLexeme, "move"] ∧
      Statement.parse ⟨0⟩ tokens = .error error ∧ error.position = 3 ∧
      error.cause = .nestingTooDeep 0 ∧ error.Describes 0 tokens := by
  obtain ⟨tokens, spelled⟩ : ∃ tokens, tokens =
    Token.ofLexemes ["WHILE", "true", "DO", endOfInputLexeme, "move"] := ⟨_, rfl⟩
  have classified : ∀ token ∈ tokens, token.kind = .ofLexeme token.lexeme := by
    rw [spelled]
    decide +kernel
  have failed : Statement.parse ⟨0⟩ tokens = .error ⟨.nestingTooDeep 0, 3, ⟨1, 3⟩, none⟩ := by
    rw [spelled]
    rfl
  obtain ⟨-, statement, -⟩ := @parse_describes_token ⟨0⟩ tokens classified
  exact ⟨tokens, _, spelled, failed, rfl, rfl, statement _ failed⟩

end BlockLanguage
