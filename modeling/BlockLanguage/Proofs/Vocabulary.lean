/-
**Conditions are read as they are spelled.**

A source text is cut into tokens, parsed and built up with different tests of a text: whether it is
a word, of which class it is, whether it spells a condition, and which condition it names when it is
read leniently. They agree on every text. Where the grammar expects a condition, the exact spelling
is taken and nothing else, however the lenient reading takes it.

* `Session.ask_consumeCondition_eq_ok_iff`, `Machine.gives_consumeCondition_iff`: what is taken as
  a condition, by the rule and by the machine, which looks it up twice.
* `TestsExactly`, `Accepted.testsExactly`: in a text that is parsed, the text of a condition stands
  before each THEN and each DO.
* `lookups_agree`: all tests together.
-/

import BlockLanguage.Proofs.Acceptance
import BlockLanguage.Proofs.Consumption
import BlockLanguage.Proofs.MachineSteps
import BlockLanguage.Proofs.RoundTrip
import BlockLanguage.Proofs.Spellings

namespace BlockLanguage

/-! ### Taking a condition -/

namespace Session

variable {session next : Session} {condition : Condition}

/-- A session takes a condition exactly if it stands before a token that is spelled like it. -/
theorem ask_consumeCondition_eq_ok_iff :
    session.ask .consumeCondition = .ok (.condition condition, next) ↔
      session.cursor.atEnd = false ∧ session.cursor.front.lexeme = condition.text ∧
        next = { session with cursor := session.cursor.advance } := by
  have answer : (Request.rule session.options.maxNestingDepth .consumeCondition).run
      session.cursor = .ok (.condition condition, next.cursor) ↔
        Grammar.condition.run session.cursor = .ok (condition, next.cursor) := by
    rw [Request.rule, Rule.run_bind_eq_ok_iff]
    simp
  rw [ask_eq_ok_iff, answer, Grammar.condition_eq_ok_iff, Cursor.reads_singleton_iff, and_assoc,
    and_assoc]
  obtain ⟨cursor, options⟩ := next
  simp

/-- What spells no condition is refused wherever it stands. -/
theorem exists_ask_consumeCondition_eq_error
    (unspelled : Word.isCondition session.cursor.front.lexeme = false) :
    ∃ stop, session.ask .consumeCondition = .error stop ∧ (session.cursor.atEnd = false →
      stop.error.cause = .invalidCondition session.cursor.front.lexeme) := by
  have none : Condition.ofText? session.cursor.front.lexeme = none := by
    rw [Word.isCondition, Option.isSome_eq_false_iff, Option.isNone_iff_eq_none] at unspelled
    exact unspelled
  cases ended : session.cursor.atEnd with
  | true =>
    have refused : Grammar.condition.run session.cursor =
        .error ⟨session.cursor.unexpected "a condition", session.cursor⟩ := by
      rw [Grammar.run_condition, ended]
      rfl
    exact ⟨_, by rw [ask, Request.rule, Rule.run_bind_of_error refused],
      fun isOpen => absurd isOpen (by decide)⟩
  | false =>
    have refused := Grammar.run_condition session.cursor
    rw [ended, none] at refused
    exact ⟨_, by rw [ask, Request.rule, Rule.run_bind_of_error refused], fun _ => rfl⟩

end Session

namespace Machine

variable {machine after : Machine} {token : Token} {condition : Condition}

/-- Before a token, the machine takes a condition exactly if the token is spelled like it. -/
theorem gives_consumeCondition_iff (found : machine.tokens[machine.current]? = some token)
    (ahead : token.isEndOfInput = false) :
    Gives consumeCondition.run machine (.ok condition) after ↔
      token.lexeme = condition.text ∧ after = { machine with current := machine.current + 1 } := by
  have peeks := gives_peek_of_getElem? found
  cases spelled : Condition.ofText? token.lexeme with
  | none =>
    have fails : ∃ error, Gives consumeCondition.run machine (.error error) machine :=
      ⟨_, peeks.lift (by
        rw [ahead, filter_parse?, spelled]
        exact (gives_error_of_getElem? found _ _).throws)⟩
    constructor
    · intro gives
      obtain ⟨error, fails⟩ := fails
      cases (gives.unique fails).1
    · rintro ⟨same, -⟩
      rw [same, Condition.ofText?_eq_some_iff.mpr rfl] at spelled
      cases spelled
  | some known =>
    have takes : Gives consumeCondition.run machine (.ok known)
        { machine with current := machine.current + 1 } := by
      refine peeks.lift ?_
      rw [ahead, filter_parse?, spelled]
      exact (gives_advance_of_getElem? found ahead).lift (gives_pure _ _)
    constructor
    · intro gives
      obtain ⟨same, rfl⟩ := gives.unique takes
      cases same
      exact ⟨(Condition.ofText?_eq_some_iff.mp spelled).symm, rfl⟩
    · rintro ⟨same, rfl⟩
      rw [same, Condition.ofText?_eq_some_iff.mpr rfl] at spelled
      cases spelled
      exact takes

end Machine

/-! ### What stands before THEN and DO -/

/-- The keywords that open a block behind a condition. -/
def Word.openings : List String := ["THEN", "DO"]

theorem Condition.text_notMem_openings (condition : Condition) :
    condition.text ∉ Word.openings := by
  cases condition <;> decide

theorem Identifier.text_notMem_openings (name : Identifier) : name.text ∉ Word.openings := by
  have keywords : ∀ opening ∈ Word.openings, opening ∈ Word.keywords := by decide
  exact fun member => name.text_ne_of_keyword (keywords _ member) rfl

/-- Each THEN and each DO stands behind the surface text of a condition. -/
inductive TestsExactly : List String → Prop
  | nil : TestsExactly []
  | other {lexeme : String} {more : List String} (apart : lexeme ∉ Word.openings)
    (rest : TestsExactly more) : TestsExactly (lexeme :: more)
  | test (condition : Condition) {opening : String} {more : List String}
    (opens : opening ∈ Word.openings) (rest : TestsExactly more) :
    TestsExactly (condition.text :: opening :: more)

namespace TestsExactly

variable {first second before behind : List String} {text opening : String}

/-- Lexemes without THEN and DO. -/
theorem of_forall_notMem (apart : ∀ lexeme ∈ first, lexeme ∉ Word.openings) :
    TestsExactly first := by
  induction first with
  | nil => exact .nil
  | cons lexeme more ih =>
    rw [List.forall_mem_cons] at apart
    exact .other apart.1 (ih apart.2)

theorem append (here : TestsExactly first) (there : TestsExactly second) :
    TestsExactly (first ++ second) := by
  induction here with
  | nil => exact there
  | other apart _ ih => exact .other apart ih
  | test condition opens _ ih => exact .test condition opens ih

/-- Neither a THEN nor a DO comes first. -/
theorem not_cons (opens : opening ∈ Word.openings) : ¬ TestsExactly (opening :: behind) := by
  intro tests
  cases tests with
  | other apart _ => exact apart opens
  | test condition _ _ => exact condition.text_notMem_openings opens

/-- What stands before a THEN or a DO spells a condition. -/
theorem isCondition (opens : opening ∈ Word.openings)
    (tests : TestsExactly (before ++ text :: opening :: behind)) :
    Word.isCondition text = true := by
  generalize split : before ++ text :: opening :: behind = lexemes at tests
  -- Where the text is the lexeme in front, either it is the condition of a test, or the THEN or DO
  -- behind it would come first in the rest.
  induction tests generalizing before with
  | nil => simp at split
  | other apart rest ih =>
    cases before with
    | nil =>
      obtain ⟨-, rfl⟩ := List.cons.inj split
      exact absurd rest (not_cons opens)
    | cons head tail => exact ih (List.cons.inj split).2
  | test condition _ rest ih =>
    match before with
    | [] =>
      obtain ⟨rfl, -⟩ := List.cons.inj split
      exact Word.isCondition_iff.mpr ⟨condition, rfl⟩
    | [_] =>
      obtain ⟨-, rfl⟩ := List.cons.inj (List.cons.inj split).2
      exact absurd rest (not_cons opens)
    | _ :: _ :: tail => exact ih (List.cons.inj (List.cons.inj split).2).2

end TestsExactly

mutual

/-- A statement is spelled with exact conditions. -/
theorem Statement.testsExactly_lexemes : ∀ s : Statement, TestsExactly s.lexemes
  | .ifThen c body => by
    rw [Statement.lexemes, List.append_assoc]
    exact .other (by decide) (.test c (by decide)
      ((Block.testsExactly_lexemes body).append (.of_forall_notMem (by decide))))
  | .ifElse c thenBody elseBody => by
    rw [Statement.lexemes, List.append_assoc, List.append_assoc]
    exact .other (by decide) (.test c (by decide)
      ((Block.testsExactly_lexemes thenBody).append (.other (by decide)
        ((Block.testsExactly_lexemes elseBody).append (.of_forall_notMem (by decide))))))
  | .whileDo c body => by
    rw [Statement.lexemes, List.append_assoc]
    exact .other (by decide) (.test c (by decide)
      ((Block.testsExactly_lexemes body).append (.of_forall_notMem (by decide))))
  | .call name => by
    rw [Statement.lexemes]
    exact .other name.text_notMem_openings .nil

/-- A block is spelled with exact conditions. -/
theorem Block.testsExactly_lexemes : ∀ body : List Statement, TestsExactly (Block.lexemes body)
  | [] => by
    rw [Block.lexemes]
    exact .nil
  | first :: more => by
    rw [Block.lexemes]
    exact (Statement.testsExactly_lexemes first).append (Block.testsExactly_lexemes more)

end

namespace Program

theorem testsExactly_definitions (definitions : Context.Entries) :
    TestsExactly (definitions.flatMap definitionLexemes) := by
  induction definitions with
  | nil => exact .nil
  | cons entry others ih =>
    obtain ⟨name, body⟩ := entry
    rw [List.flatMap_cons, definitionLexemes_eq]
    exact .other (by decide) (.other name.text_notMem_openings (.other (by decide)
      ((Block.testsExactly_lexemes body).append (.other (by decide)
        (.other name.text_notMem_openings ih)))))

theorem testsExactly_spelling (name : Identifier) (definitions : Context.Entries) (body : Block) :
    TestsExactly (spelling name definitions body) := by
  rw [spelling_eq]
  exact .other (by decide) (.other name.text_notMem_openings (.other (by decide)
    ((testsExactly_definitions definitions).append (.other (by decide)
      ((Block.testsExactly_lexemes body).append (.other (by decide)
        (.other name.text_notMem_openings .nil)))))))

end Program

/-- A source text is parsed as a program, as a statement or as a block. -/
inductive Accepted (options : Options) (source : String) : Prop
  | program (program : Program) (parsed : Program.parse options (tokenize source) = .ok program)
  | statement (s : Statement) (parsed : Statement.parse options (tokenize source) = .ok s)
  | block (body : Block) (parsed : Block.parse options (tokenize source) = .ok body)

/-- In a text that is parsed, each THEN and each DO stands behind an exact spelling. -/
theorem Accepted.testsExactly {options : Options} {source : String}
    (accepted : Accepted options source) : TestsExactly (Token.lexemes (tokenize source)) := by
  have plain := plain_tokenize source
  cases accepted with
  | program program parsed =>
    obtain ⟨definitions, spells⟩ := Program.spells_of_parse plain parsed
    rw [spells.spelled]
    exact Program.testsExactly_spelling _ _ _
  | statement s parsed =>
    rw [((Statement.parse_eq_ok_iff plain).mp parsed).1]
    exact s.testsExactly_lexemes
  | block body parsed =>
    rw [((Block.parse_eq_ok_iff plain).mp parsed).1]
    exact Block.testsExactly_lexemes body

/-! ### All tests together -/

/-- **The tests of a text agree.** A word is in exactly one of the three classes, anything else in
none, and a lexeme has the kind that suits it. The lenient reading finds a condition for its
variants; the exact spellings are those that it gives back unchanged. Where the grammar expects a
condition, it takes the exact spelling and nothing else, and in a text that is parsed nothing else
stands before THEN and DO. So a variant other than the surface text is refused wherever it stands;
it is an identifier unless it has a `_`. -/
theorem lookups_agree (text : String) :
    [Word.isKeyword text, Word.isCondition text, Word.isIdentifier text].count true =
      (if Word.isWord text then 1 else 0) ∧
    (∀ span kind, Token.classify text span = ⟨kind, text, span⟩ ↔ kind.Suits text) ∧
    (∀ condition, Condition.parse? text = some condition ↔ condition.Variant text) ∧
    (Word.isCondition text = true ↔
      ∃ condition, Condition.parse? text = some condition ∧ condition.text = text) ∧
    (∀ (session next : Session) condition, session.cursor.front.lexeme = text →
      (session.ask .consumeCondition = .ok (.condition condition, next) ↔
        session.cursor.atEnd = false ∧ text = condition.text ∧
          next = { session with cursor := session.cursor.advance })) ∧
    (∀ (machine after : Machine) token condition,
      machine.tokens[machine.current]? = some token → token.isEndOfInput = false →
      token.lexeme = text →
      (Machine.Gives Machine.consumeCondition.run machine (.ok condition) after ↔
        text = condition.text ∧ after = { machine with current := machine.current + 1 })) ∧
    (∀ options source before opening behind, Accepted options source →
      Token.lexemes (tokenize source) = before ++ text :: opening :: behind →
      opening ∈ Word.openings → Word.isCondition text = true) ∧
    ∀ condition, Condition.parse? text = some condition → text ≠ condition.text →
      Word.isCondition text = false ∧ (Word.isIdentifier text = true ↔ '_' ∉ text.toList) ∧
      ∀ session : Session, session.cursor.front.lexeme = text →
        ∃ stop, session.ask .consumeCondition = .error stop ∧
          (session.cursor.atEnd = false → stop.error.cause = .invalidCondition text) := by
  refine ⟨Word.count_classes text, ?_, fun _ => Condition.parse?_eq_some_iff,
    Condition.isCondition_iff_parse?, ?_, ?_, ?_, ?_⟩
  · intro span kind
    rw [← TokenKind.ofLexeme_eq_iff]
    simp [Token.classify]
  · rintro session next condition rfl
    exact Session.ask_consumeCondition_eq_ok_iff
  · rintro machine after token condition found ahead rfl
    exact Machine.gives_consumeCondition_iff found ahead
  · intro options source before opening behind accepted split opens
    have tests := accepted.testsExactly
    rw [split] at tests
    exact tests.isCondition opens
  · intro condition read other
    have variant := Condition.parse?_eq_some_iff.mp read
    have unspelled := variant.isCondition_eq_false other
    refine ⟨unspelled, variant.isIdentifier_iff other, ?_⟩
    rintro session rfl
    exact Session.exists_ask_consumeCondition_eq_error unspelled

/-- With capitals, a condition is read leniently, but it is an identifier, is not taken as a
condition, and is not parsed before DO; in small letters it is taken. -/
theorem lookups_agree_capitals :
    Condition.parse? "Next-Is-Wall" = some .nextIsWall ∧
      Word.isIdentifier "Next-Is-Wall" = true ∧
      (∃ stop, (Session.start {} (Token.ofLexemes ["Next-Is-Wall"])).ask .consumeCondition =
        .error stop ∧ stop.error.cause = .invalidCondition "Next-Is-Wall") ∧
      ¬ Accepted {} "WHILE Next-Is-Wall DO END WHILE" ∧
      (∃ next, (Session.start {} (Token.ofLexemes ["next-is-wall"])).ask .consumeCondition =
        .ok (.condition .nextIsWall, next)) ∧
      (∃ after, Machine.Gives Machine.consumeCondition.run
        (Machine.start {} (Token.ofLexemes ["next-is-wall"])) (.ok .nextIsWall) after) ∧
      ∃ source, Accepted {} source ∧
        Token.lexemes (tokenize source) = ["WHILE", "next-is-wall", "DO", "END", "WHILE"] ∧
        Word.isCondition "next-is-wall" = true := by
  have read : Condition.parse? "Next-Is-Wall" = some .nextIsWall := by decide +kernel
  obtain ⟨-, -, -, -, -, -, parsed, variants⟩ := lookups_agree "Next-Is-Wall"
  obtain ⟨unspelled, isIdentifier, refused⟩ := variants _ read (by decide)
  obtain ⟨-, -, -, -, taken, takenToo, parsedExact, -⟩ := lookups_agree "next-is-wall"
  refine ⟨read, isIdentifier.mpr (by decide +kernel), ?_, ?_, ?_, ?_, ?_⟩
  · obtain ⟨stop, asked, cause⟩ :=
      refused (.start {} (Token.ofLexemes ["Next-Is-Wall"])) (by decide +kernel)
    exact ⟨stop, asked, cause (by decide +kernel)⟩
  · intro accepted
    have spelled := parsed {} _ ["WHILE"] "DO" ["END", "WHILE"] accepted (by decide +kernel)
      (by decide)
    rw [unspelled] at spelled
    cases spelled
  · exact ⟨_, (taken (.start {} (Token.ofLexemes ["next-is-wall"])) _ .nextIsWall
      (by decide +kernel)).mpr ⟨by decide +kernel, rfl, rfl⟩⟩
  · exact ⟨_, (takenToo (Machine.start {} (Token.ofLexemes ["next-is-wall"])) _ _ .nextIsWall
      rfl (by decide +kernel) (by decide +kernel)).mpr ⟨rfl, rfl⟩⟩
  · have lexemes : Token.lexemes (tokenize "WHILE next-is-wall DO END WHILE") =
        ["WHILE", "next-is-wall", "DO", "END", "WHILE"] := by decide +kernel
    have accepted : Accepted {} "WHILE next-is-wall DO END WHILE" := by
      refine .statement (.whileDo .nextIsWall []) ?_
      rw [Statement.parse_eq_ok_iff (plain_tokenize _), lexemes]
      simp [Statement.lexemes, Block.lexemes, Condition.text, Statement.depth, Block.depth]
    exact ⟨_, accepted, lexemes,
      parsedExact {} _ ["WHILE"] "DO" ["END", "WHILE"] accepted lexemes (by decide)⟩

end BlockLanguage
