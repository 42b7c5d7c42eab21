/-
**Every run of the machine ends, and none in a fault.**

Statements, blocks and programs are parsed by steps that follow the rules for them. Every round of a
rule takes a token, so no loop of the machine goes round in vain, and its rounds are no more than
its tokens; blocks are parsed inside of each other no deeper than the limit allows. What has been
parsed is what the operations ask for, so none of them is refused; and every level that is left has
been entered. So with enough fuel whatever the machine parses ends in what the rules read, or in
their error, and behind it the machine can be asked again.

* `follows_nested`: a level is entered and left, whatever comes of what is inside.
* `ends_loop`: a loop follows an iteration, by induction on its fuel.
* `nests_blockWithin`: blocks inside of each other, by induction on the levels left.
* `follows_perform`, `serve_askAll`: one machine replies to requests as a session does.
* `parse_never_faults`: whole parses, and whatever one machine is asked.
-/

import BlockLanguage.Proofs.MachineSteps

namespace BlockLanguage

namespace Machine

section Follows

variable {α β γ δ : Type} {home : Machine} {cursor : Cursor}

/-! ### Levels -/

/-- The machine one level deeper. -/
def deeper (home : Machine) : Machine := { home with depth := home.depth + 1 }

theorem gives_enter (more : home.depth < home.options.maxNestingDepth) :
    Gives enter.run (home.atCursor cursor) (.ok ()) (home.deeper.atCursor cursor) := by
  have within : ¬ home.options.maxNestingDepth ≤ home.depth := Nat.not_le.mpr more
  refine Gives.lift (gives_get _) ?_
  show Gives (if home.options.maxNestingDepth ≤ home.depth then _ else _ : Run Unit).run _ _ _
  rw [if_neg within]
  rfl

theorem gives_enter_full (covers : home.Covers cursor)
    (full : home.options.maxNestingDepth ≤ home.depth) :
    Gives enter.run (home.atCursor cursor)
      (.error (cursor.error (.nestingTooDeep home.options.maxNestingDepth) none))
      (home.atCursor cursor) := by
  refine Gives.lift (gives_get _) ?_
  show Gives (if home.options.maxNestingDepth ≤ home.depth then _ else _ : Run Unit).run _ _ _
  rw [if_pos full]
  exact (gives_error covers _ _).throws

theorem gives_leave : Gives leave (home.deeper.atCursor cursor) () (home.atCursor cursor) := rfl

/-- How what is inside an IF or WHILE is parsed: not at all where no level is left, else as a rule
reads it, one level deeper. -/
inductive Nests {α β : Type} (home : Machine) (parse : Run α) (shown : β → α) : Rule β → Prop
  | full (noLevel : home.options.maxNestingDepth ≤ home.depth) :
    Nests home parse shown
      (Rule.refuse (·.error (.nestingTooDeep home.options.maxNestingDepth) none))
  | within {rule : Rule β} (more : home.depth < home.options.maxNestingDepth)
      (follows : Follows home.deeper parse.run rule shown) : Nests home parse shown rule

/-- **A level is entered and left**, whatever comes of what is inside. -/
theorem follows_nested {parse : Run α} {rule : Rule β} {shown : β → α}
    (nests : Nests home parse shown rule) : Follows home (nested parse).run rule shown := by
  intro cursor covers
  cases nests with
  | full noLevel => exact .error covers (gives_enter_full covers noLevel).andStop
  | within more follows =>
    refine .andThen (gives_enter more) ?_
    have inside := follows cursor covers
    generalize rule.run cursor = step at inside
    cases inside with
    | ok covers gives => exact .ok covers (gives.lift (gives_leave.lift (gives_pure _ _)))
    | error covers gives => exact .error covers (gives.lift (gives_leave.lift (gives_pure _ _)))

/-! ### Loops -/

/-- A round that took a token is no round in vain. -/
theorem gives_endRound {rest : Cursor} (reaches : cursor.Reaches rest)
    (shorter : rest.live.length < cursor.live.length) :
    Gives (endRound cursor.position) (home.atCursor rest) () (home.atCursor rest) := by
  obtain ⟨passed, passes⟩ := reaches
  have moved : rest.position ≠ cursor.position := by
    have ahead := congrArg List.length passes.live
    have position := passes.position
    rw [List.length_append] at ahead
    omega
  refine Gives.bind (gives_get _) ?_
  rw [if_neg (show ¬ (home.atCursor rest).current = cursor.position from moved)]
  exact gives_pure _ _

/-- **A loop follows an iteration** if its rounds follow the rule for them, and if it has fuel for
every token ahead; the induction is on the fuel, since every round takes a token. -/
theorem ends_loop {goesOn : Cursor → Bool} {goes : Effect Bool} {round : α → Run α}
    {rule : β → Rule β} {shown : β → α}
    (progress : ∀ value, Rule.Progresses goesOn (rule value))
    (sees : ∀ cursor, home.Covers cursor →
      Gives goes (home.atCursor cursor) (goesOn cursor) (home.atCursor cursor))
    (follows : ∀ value, Follows home (round (shown value)).run (rule value) shown)
    {fuel : Nat} (value : β) {cursor : Cursor} (covers : home.Covers cursor)
    (enough : cursor.live.length < fuel) :
    Ends home (loop goes round fuel (shown value)).run shown (home.atCursor cursor)
      (Rule.iterateFrom goesOn rule progress value cursor) := by
  induction fuel generalizing value cursor with
  | zero => exact absurd enough (Nat.not_lt_zero _)
  | succ fuel ih =>
    refine .lift (sees cursor covers) ?_
    cases again : goesOn cursor with
    | false =>
      rw [Rule.iterateFrom_stop _ _ _ again]
      exact ends_pure shown covers value
    | true =>
      refine .lift (gives_get _) ?_
      have first := follows value cursor covers
      cases read : (rule value).run cursor with
      | error stop =>
        rw [read] at first
        rw [Rule.iterateFrom_error _ _ _ again read]
        cases first with
        | error covers gives => exact .error covers gives.andStop
      | ok step =>
        obtain ⟨next, rest⟩ := step
        rw [read] at first
        have shorter := progress value cursor next rest again read
        have reaches := (rule value).forward read
        rw [Rule.iterateFrom_more _ _ _ again read]
        cases first with
        | ok covers gives =>
          exact .andThen gives (.lift (gives_endRound reaches shorter) (ih next covers (by omega)))

/-! ### Statements -/

/-- The one or two blocks of an IF. -/
def branches (inner : Rule Block) (test : Condition) : Rule Statement := do
  let thenBody ← inner
  if ← Grammar.optional "ELSE" then
    let elseBody ← inner
    return .ifElse test thenBody elseBody
  else return .ifThen test thenBody

/-- The blocks of an IF stand between its head and its end. -/
theorem ifStatement_eq (inner : Rule Block) :
    Grammar.ifStatement inner = (do
      Grammar.keyword "IF"
      let test ← Grammar.condition
      Grammar.keyword "THEN"
      let s ← branches inner test
      Grammar.keyword "END"
      Grammar.keyword "IF"
      return s) := by
  simp only [Grammar.ifStatement, branches, bind_assoc]
  refine bind_congr fun _ => bind_congr fun test => bind_congr fun _ => ?_
  refine bind_congr fun thenBody => bind_congr fun found => ?_
  cases found <;> simp

theorem follows_callStatement :
    Follows home callStatement.run Grammar.callStatement .statement := by
  refine follows_identifier.bind fun name => ?_
  rw [Fragment.call, Identifier.ofText?_text]
  exact follows_pure Fragment.statement (.call name)

section Inner

variable {parseInner : Run Fragment} {inner : Rule Block}

theorem follows_ifBranches (follows : Follows home parseInner.run inner .block)
    (test : Condition) :
    Follows home (ifBranches parseInner test).run (branches inner test) .statement := by
  refine follows.bind fun thenBody => (follows_optional "ELSE").bind fun found => ?_
  cases found with
  | true => exact follows.bind fun elseBody => follows_pure Fragment.statement _
  | false => exact follows_pure Fragment.statement (.ifThen test thenBody)

variable (nests : Nests home parseInner .block inner)
include nests

theorem nests_ifBranches (test : Condition) :
    Nests home (ifBranches parseInner test) .statement (branches inner test) := by
  cases nests with
  | full noLevel => exact .full noLevel
  | within more follows => exact .within more (follows_ifBranches follows test)

theorem follows_ifStatement :
    Follows home (ifStatement parseInner).run (Grammar.ifStatement inner) .statement := by
  rw [ifStatement_eq]
  refine (follows_keyword "IF").bind fun _ => follows_condition.bind fun test => ?_
  refine (follows_keyword "THEN").bind fun _ => ?_
  refine (follows_nested (nests_ifBranches nests test)).bind fun s => ?_
  refine (follows_keyword "END").bind fun _ => (follows_keyword "IF").bind fun _ => ?_
  exact follows_pure Fragment.statement s

theorem follows_whileStatement :
    Follows home (whileStatement parseInner).run (Grammar.whileStatement inner) .statement := by
  refine (follows_keyword "WHILE").bind fun _ => follows_condition.bind fun test => ?_
  refine (follows_keyword "DO").bind fun _ => (follows_nested nests).bind fun body => ?_
  refine (follows_keyword "END").bind fun _ => (follows_keyword "WHILE").bind fun _ => ?_
  exact follows_pure Fragment.statement (.whileDo test body)

theorem follows_statementWith :
    Follows home (statementWith parseInner).run (Grammar.statementWith inner) .statement := by
  intro cursor covers
  rw [Grammar.run_statementWith]
  refine .lift (gives_peek covers) ?_
  dsimp only
  rw [← Bool.not_or]
  cases known : Word.isKeyword cursor.front.lexeme || Word.isIdentifier cursor.front.lexeme with
  | false =>
    have others : ∀ lexeme ∈ Word.keywords, cursor.front.lexeme ≠ lexeme := by
      intro lexeme listed same
      have isKeyword : Word.isKeyword cursor.front.lexeme = true :=
        List.contains_iff_mem.mpr (same ▸ listed)
      rw [isKeyword] at known
      cases known
    rw [if_neg (others "IF" (by decide)), if_neg (others "WHILE" (by decide))]
    exact ends_unexpected covers _
  | true =>
    refine .lift (gives_checkKeyword covers "IF") ?_
    by_cases isIf : cursor.front.lexeme = "IF"
    · rw [if_pos isIf, if_pos (Grammar.stands_iff.mpr isIf)]
      exact follows_ifStatement nests cursor covers
    · rw [if_neg isIf, if_neg (mt Grammar.stands_iff.mp isIf)]
      refine .lift (gives_checkKeyword covers "WHILE") ?_
      by_cases isWhile : cursor.front.lexeme = "WHILE"
      · rw [if_pos isWhile, if_pos (Grammar.stands_iff.mpr isWhile)]
        exact follows_whileStatement nests cursor covers
      · rw [if_neg isWhile, if_neg (mt Grammar.stands_iff.mp isWhile)]
        exact follows_callStatement cursor covers

/-! ### Blocks -/

/-- A round of a block: a statement, added behind those before it. -/
def added (statement : Rule Statement) (before : Block) : Rule Block := do
  let s ← statement
  return before ++ [s]

omit nests in
theorem progresses_added (before : Block) :
    Rule.Progresses Grammar.blockGoesOn (added (Grammar.statementWith inner) before) := by
  intro cursor longer rest again read
  obtain ⟨s, behind, found, last⟩ := Rule.run_bind_eq_ok_iff.mp read
  cases last
  exact Grammar.progresses_block inner cursor s rest again found

omit nests in
/-- **The rule for a block is an iteration that adds statements**, by induction on the tokens
ahead. -/
theorem iterateFrom_added (before : Block) (cursor : Cursor) :
    Rule.iterateFrom Grammar.blockGoesOn (added (Grammar.statementWith inner)) progresses_added
        before cursor =
      match (Grammar.blockWith inner).run cursor with
      | .error stop => .error stop
      | .ok (more, last) => .ok (before ++ more, last) := by
  cases again : Grammar.blockGoesOn cursor with
  | false =>
    rw [Rule.iterateFrom_stop _ _ _ again, Grammar.blockWith_eq_ok_nil_iff.mpr ⟨again, rfl⟩]
    show _ = Except.ok (before ++ [], cursor)
    rw [List.append_nil]
  | true =>
    cases read : (Grammar.statementWith inner).run cursor with
    | error stop =>
      rw [Grammar.blockWith_eq_error_iff.mpr ⟨again, .inl read⟩]
      exact Rule.iterateFrom_error _ _ _ again (Rule.run_bind_of_error read)
    | ok step =>
      obtain ⟨s, rest⟩ := step
      have shorter := Grammar.progresses_block inner cursor s rest again read
      have round : (added (Grammar.statementWith inner) before).run cursor =
          .ok (before ++ [s], rest) := Rule.run_bind_of_ok read
      rw [Rule.iterateFrom_more _ _ _ again round, iterateFrom_added (before ++ [s]) rest]
      cases behind : (Grammar.blockWith inner).run rest with
      | error stop =>
        rw [Grammar.blockWith_eq_error_iff.mpr ⟨again, .inr ⟨s, rest, read, behind⟩⟩]
      | ok step =>
        obtain ⟨more, last⟩ := step
        rw [Grammar.blockWith_eq_ok_cons_iff.mpr ⟨again, rest, read, behind⟩]
        show Except.ok (before ++ [s] ++ more, last) = Except.ok (before ++ ([s] ++ more), last)
        rw [List.append_assoc]
termination_by cursor.live.length

omit nests in
/-- Behind the last statement of a block there is a place. -/
theorem insert_last (before : Block) (s : Statement) :
    (Fragment.block before).insert before.length (.statement s) =
      .ok (.block (before ++ [s])) := by
  show (if before.length ≤ before.length then _ else _ : Except Refusal Fragment) = _
  rw [if_pos (Nat.le_refl _), List.take_length, List.drop_length]
  rfl

theorem follows_addStatement (before : Block) :
    Follows home (addStatement parseInner (.block before)).run
      (added (Grammar.statementWith inner) before) .block := by
  refine (follows_statementWith nests).bind fun s cursor covers => ?_
  have inserted : Gives
      (checked ((Fragment.block before).insert before.length (.statement s)))
      (home.atCursor cursor) (.block (before ++ [s])) (home.atCursor cursor) := by
    rw [insert_last]
    exact gives_pure _ _
  exact .lift (gives_pure before.length _) (.ok covers inserted.lifted)

omit nests in
theorem gives_blockGoesOn (covers : home.Covers cursor) :
    Gives blockGoesOn (home.atCursor cursor) (Grammar.blockGoesOn cursor)
      (home.atCursor cursor) := by
  rw [Grammar.blockGoesOn]
  refine (gives_checkKeyword covers "END").bind ?_
  cases Grammar.stands "END" cursor with
  | true => exact gives_pure _ _
  | false =>
    refine (gives_checkKeyword covers "ELSE").bind ?_
    cases Grammar.stands "ELSE" cursor with
    | true => exact gives_pure _ _
    | false => exact (gives_isAtEnd covers).bind (gives_pure _ _)

theorem follows_blockLoop {fuel : Nat} (enough : home.tokens.length ≤ fuel) :
    Follows home (loop blockGoesOn (addStatement parseInner) fuel .empty).run
      (Grammar.blockWith inner) .block := by
  intro cursor covers
  have rounds : cursor.live.length < fuel := Nat.lt_of_lt_of_le covers.length_lt enough
  have ends := ends_loop progresses_added (fun _ => gives_blockGoesOn)
    (follows_addStatement nests) [] covers rounds
  rw [iterateFrom_added] at ends
  generalize (Grammar.blockWith inner).run cursor = step at ends
  cases step with
  | error stop => exact ends
  | ok step => exact ends

end Inner

/-- **Blocks inside of as many levels as are left** are parsed as the rule for them reads them, by
induction on the levels. -/
theorem nests_blockWithin {fuel blocks levels : Nat} (enough : home.tokens.length ≤ fuel)
    (left : home.depth + levels = home.options.maxNestingDepth) (within : levels ≤ blocks) :
    Nests home (blockWithin fuel blocks) .block
      (Grammar.inner home.options.maxNestingDepth levels) := by
  induction levels generalizing home blocks with
  | zero => exact .full (Nat.le_of_eq left.symm)
  | succ levels ih =>
    obtain ⟨blocks, rfl⟩ := Nat.exists_eq_succ_of_ne_zero (Nat.ne_zero_of_lt within)
    have deeperLeft : home.depth + 1 + levels = home.options.maxNestingDepth := by omega
    have inside : Nests home.deeper (blockWithin fuel blocks) .block
        (Grammar.inner home.options.maxNestingDepth levels) :=
      ih enough deeperLeft (Nat.le_of_succ_le_succ within)
    exact .within (by omega) (follows_blockLoop inside enough)

/-! ### Programs -/

/-- A definition of a name that is not built in is refused just where the name is taken. -/
theorem define_eq (program : Program) (name : Identifier) (body : Block)
    (free : Word.isPrimitive name.text = false) :
    program.define name.text (.block body) =
      if (program.context.find? name.text).isSome then .error (.duplicate name.text)
      else .ok { program with context := program.context.put name body free } := by
  unfold Program.define
  rw [Identifier.ofText?_text]
  exact dif_pos free

theorem gives_partBegins (covers : home.Covers cursor) :
    Gives partBegins (home.atCursor cursor)
      (Grammar.stands "INSTRUCTION" cursor || Grammar.stands "BEGIN" cursor)
      (home.atCursor cursor) := by
  refine (gives_checkKeyword covers "INSTRUCTION").bind ?_
  cases Grammar.stands "INSTRUCTION" cursor with
  | true => exact gives_pure _ _
  | false => exact gives_checkKeyword covers "BEGIN"

section Outside

variable {fuel : Nat} (outside : home.depth = 0) (enough : home.tokens.length ≤ fuel)
  (within : home.options.maxNestingDepth < fuel)
include outside enough within

theorem follows_parseBlock :
    Follows home (parseBlock fuel).run (Grammar.block home.options.maxNestingDepth) .block := by
  obtain ⟨blocks, rfl⟩ := Nat.exists_eq_succ_of_ne_zero (Nat.ne_zero_of_lt within)
  have inside := nests_blockWithin enough (outside ▸ Nat.zero_add _)
    (Nat.le_of_lt_succ within)
  exact follows_blockLoop inside enough

theorem follows_parseStatement :
    Follows home (parseStatement fuel).run (Grammar.statement home.options.maxNestingDepth)
      .statement :=
  follows_statementWith
    (nests_blockWithin enough (outside ▸ Nat.zero_add _) (Nat.le_of_lt within))

theorem follows_instruction (program : Program) :
    Follows home (instruction fuel program).run
      (Grammar.definition home.options.maxNestingDepth program.context)
      fun context => { program with context } := by
  refine (follows_keyword "INSTRUCTION").bind fun _ named covers => ?_
  refine .lift (gives_get _) (.lift (gives_peek covers) ?_)
  refine (follows_identifier.bind fun name => ?_ : Follows home _ _ _) named covers
  by_cases free : Word.isPrimitive name.text = false
  · rw [dif_pos free, free]
    refine (follows_keyword "IS").bind fun _ => ?_
    refine (follows_parseBlock outside enough within).bind fun body => ?_
    refine (follows_keyword "END").bind fun _ => (follows_closingName _).bind fun _ => ?_
    intro cursor covers
    rw [define, define_eq program name body free]
    cases (program.context.find? name.text).isSome with
    | true => exact .error covers (gives_pure _ _)
    | false => exact .ok covers (gives_pure _ _)
  · rw [dif_neg free, if_pos (by simpa using free)]
    exact fun cursor covers => .error covers (gives_pure _ _)

theorem follows_definitions (name : Identifier) :
    Follows home (loop (checkKeyword "INSTRUCTION") (instruction fuel) fuel
        ⟨name, .empty, []⟩).run
      (Grammar.definitions home.options.maxNestingDepth) fun context => ⟨name, context, []⟩ := by
  intro cursor covers
  have rounds : ∀ context, Follows home (instruction fuel ⟨name, context, []⟩).run
      (Grammar.definition home.options.maxNestingDepth context)
      fun context => ⟨name, context, []⟩ := fun context =>
    follows_instruction outside enough within ⟨name, context, []⟩
  exact ends_loop (Grammar.progresses_definition _)
    (fun _ covers => gives_checkKeyword covers "INSTRUCTION") rounds .empty covers
    (Nat.lt_of_lt_of_le covers.length_lt enough)

/-- **A program is parsed as the rule for it reads it.** -/
theorem follows_parseProgram :
    Follows home (parseProgram fuel).run (Grammar.program home.options.maxNestingDepth) id := by
  refine (follows_keyword "PROGRAM").bind fun _ => follows_identifier.bind fun name => ?_
  refine (follows_keyword "IS").bind fun _ cursor covers => ?_
  have named : Gives (checked (Program.new name.text)) (home.atCursor cursor)
      ⟨name, .empty, []⟩ (home.atCursor cursor) := by
    rw [Program.new, Identifier.ofText?_text]
    exact gives_pure _ _
  refine .lift named (.lift (gives_partBegins covers) ?_)
  rw [Rule.run_bind_of_ok (Rule.run_here cursor)]
  cases Grammar.stands "INSTRUCTION" cursor || Grammar.stands "BEGIN" cursor with
  | false => exact ends_unexpected covers _
  | true =>
    have definitions := follows_definitions outside enough within name
    refine (definitions.bind fun context => ?_ : Follows home _ _ _) cursor covers
    refine (follows_keyword "BEGIN").bind fun _ => ?_
    refine (follows_parseBlock outside enough within).bind fun body => ?_
    refine (follows_keyword "END").bind fun _ => (follows_closingName _).bind fun _ => ?_
    exact follows_endOfInput.bind fun _ => follows_pure id _

end Outside

/-! ### Whole parses and requests -/

theorem follows_whole {parse : Run α} {rule : Rule β} {shown : β → α}
    (follows : Follows home parse.run rule shown) :
    Follows home (whole parse).run (Grammar.whole rule) shown :=
  follows.bind fun value => follows_endOfInput.bind fun _ => follows_pure shown value

/-- What is done for a reply follows the rule that replies. -/
theorem Follows.replies {action : Run α} {rule : Rule β} {shown : β → α}
    (follows : Follows home action.run rule shown) (reply : α → Session.Reply) :
    Follows home (do return reply (← action)).run (do return reply (shown (← rule))) id :=
  follows.bind fun value => follows_pure id (reply (shown value))

theorem gives_identifierOf (name : Identifier) (machine : Machine) :
    Gives (identifierOf name.text) machine name machine := by
  rw [identifierOf, Identifier.ofText?_text]
  exact gives_pure _ _

/-- **Whatever the machine is asked outside of all levels, it replies as the rule does.** -/
theorem follows_perform {fuel : Nat} (outside : home.depth = 0)
    (enough : home.tokens.length ≤ fuel) (within : home.options.maxNestingDepth < fuel)
    (request : Session.Request) :
    Follows home (perform fuel request).run (request.rule home.options.maxNestingDepth) id := by
  cases request with
  | peek => exact follows_front.replies .token
  | advance => exact follows_advance.replies .token
  | isAtEnd => exact (follows_here fun _ covers => gives_isAtEnd covers).replies .truth
  | checkKeyword lexeme =>
    exact (follows_here fun _ covers => gives_checkKeyword covers lexeme).replies .truth
  | matchKeyword lexeme => exact (follows_optional lexeme).replies .truth
  | consumeKeyword lexeme => exact (follows_keyword lexeme).replies fun _ => .done
  | consumeIdentifier =>
    refine follows_identifier.bind fun name cursor covers => ?_
    exact .lift (gives_identifierOf name _) (ends_pure id covers (Session.Reply.identifier name))
  | consumeCondition => exact follows_condition.replies .condition
  | consumeClosingName name => exact (follows_closingName name).replies fun _ => .done
  | expectEndOfInput => exact follows_endOfInput.replies fun _ => .done
  | unexpected expected =>
    exact (follows_here fun _ covers => gives_unexpected covers expected).replies .error
  | remaining => exact (follows_here fun _ covers => gives_remaining covers).replies .tokens
  | statement => exact (follows_parseStatement outside enough within).replies .fragment
  | block => exact (follows_parseBlock outside enough within).replies .fragment
  | program => exact (follows_parseProgram outside enough within).replies .program

end Follows

section Start

variable {α β : Type} {options : Options} {tokens : List Token}

theorem covers_start : (start options tokens).Covers (Cursor.ofTokens tokens) := by
  unfold Covers
  rw [Cursor.position_ofTokens, Cursor.remaining_ofTokens]
  rfl

theorem atCursor_start :
    (start options tokens).atCursor (Cursor.ofTokens tokens) = start options tokens := by
  unfold atCursor
  rw [Cursor.position_ofTokens]
  rfl

/-- A step that follows a rule comes to what the rule reads from the tokens. -/
theorem outcome_eq {action : Run α} {rule : Rule β} {shown : β → α}
    (follows : Follows (start options tokens) action.run rule shown) :
    outcome action options tokens = some (.ok ((rule.parse tokens).map shown)) := by
  have ends := follows (Cursor.ofTokens tokens) covers_start
  rw [atCursor_start] at ends
  unfold outcome
  rw [Rule.parse, StateT.run'_eq, ExceptT.run_map]
  generalize rule.run (Cursor.ofTokens tokens) = step at ends
  cases ends with
  | ok covers gives =>
    rw [show (StateT.run action.run _).run = _ from gives]
    rfl
  | error covers gives =>
    rw [show (StateT.run action.run _).run = _ from gives]
    rfl

end Start

end Machine

/-! ### One machine and one session -/

namespace Session

variable {session : Session} {requests : List Request} {replies : List Reply}

theorem length_attemptAll (requests : List Request) (session : Session) :
    (session.attemptAll requests).1.length = requests.length := by
  induction requests generalizing session with
  | nil => rfl
  | cons request more ih => exact congrArg (· + 1) (ih (session.attempt request).2)

/-- Where all requests are answered, nothing else comes of them. -/
theorem attemptAll_of_askAll {last : Session}
    (asked : session.askAll requests = .ok (replies, last)) :
    session.attemptAll requests = (replies.map .ok, last) := by
  induction requests generalizing session replies with
  | nil =>
    cases asked
    rfl
  | cons request more ih =>
    obtain ⟨reply, next, rest, first, behind, rfl⟩ := askAll_cons_eq_ok_iff.mp asked
    rw [attemptAll_cons (attempt_of_ok first), ih behind]
    rfl

/-- Where a request is refused, its error comes behind the answers to those before it. -/
theorem attemptAll_of_askAll_error {stop : Stop} (refused : session.askAll requests = .error stop) :
    ∃ earlier replies between later, earlier <+: requests ∧
      session.askAll earlier = .ok (replies, between) ∧
      (session.attemptAll requests).1 = replies.map .ok ++ .error stop.error :: later := by
  induction requests generalizing session with
  | nil => cases refused
  | cons request more ih =>
    rcases askAll_cons_eq_error_iff.mp refused with first | ⟨reply, next, first, behind⟩
    · rw [attemptAll_cons (attempt_of_error first)]
      exact ⟨[], [], session, _, List.nil_prefix, rfl, rfl⟩
    · obtain ⟨earlier, replies, between, later, begins, asked, results⟩ := ih behind
      refine ⟨request :: earlier, reply :: replies, between, later,
        List.cons_prefix_cons.mpr ⟨rfl, begins⟩,
        askAll_cons_eq_ok_iff.mpr ⟨reply, next, replies, first, asked, rfl⟩, ?_⟩
      rw [attemptAll_cons (attempt_of_ok first), results]
      rfl

end Session

namespace Machine

section Served

variable {home : Machine} {fuel : Nat} (outside : home.depth = 0)
  (enough : home.tokens.length ≤ fuel) (within : home.options.maxNestingDepth < fuel)
include outside enough within

/-- A machine at the cursor of a session replies to a request as the session does, and ends at its
cursor. -/
theorem gives_perform {session : Session} (kept : session.options = home.options)
    (covers : home.Covers session.cursor) (request : Session.Request) :
    (session.attempt request).2.options = home.options ∧
      home.Covers (session.attempt request).2.cursor ∧
      Gives (perform fuel request).run (home.atCursor session.cursor) (session.attempt request).1
        (home.atCursor (session.attempt request).2.cursor) := by
  obtain ⟨cursor, _⟩ := session
  subst kept
  have ends := follows_perform outside enough within request cursor covers
  unfold Session.attempt Session.ask
  dsimp only
  generalize (request.rule home.options.maxNestingDepth).run cursor = step at ends
  cases ends with
  | ok covers gives => exact ⟨rfl, covers, gives⟩
  | error covers gives => exact ⟨rfl, covers, gives⟩

/-- **A machine at the cursor of a session replies to all requests as the session does**, and ends
at its cursor, by induction on the requests. -/
theorem gives_serve (requests : List Session.Request) {session : Session}
    (kept : session.options = home.options) (covers : home.Covers session.cursor) :
    home.Covers (session.attemptAll requests).2.cursor ∧
      Gives (serve fuel requests) (home.atCursor session.cursor) (session.attemptAll requests).1
        (home.atCursor (session.attemptAll requests).2.cursor) := by
  induction requests generalizing session with
  | nil => exact ⟨covers, gives_pure _ _⟩
  | cons request more ih =>
    obtain ⟨keptNext, coversNext, gives⟩ := gives_perform outside enough within kept covers request
    obtain ⟨coversLast, givesMore⟩ := ih keptNext coversNext
    exact ⟨coversLast, gives.bind (givesMore.bind (gives_pure _ _))⟩

end Served

section Start

variable {options : Options} {tokens : List Token} {fuel : Nat}
  (enough : (Token.complete tokens).length + options.maxNestingDepth < fuel)
  (requests : List Session.Request)
include enough

omit requests in
/-- A loop takes no more rounds than there are tokens, and blocks are nested within the limit. -/
theorem bounds_start : (start options tokens).tokens.length ≤ fuel ∧
    (start options tokens).options.maxNestingDepth < fuel := by
  show (Token.complete tokens).length ≤ fuel ∧ options.maxNestingDepth < fuel
  omega

/-- One machine does what a session attempts, and ends outside of all levels at the index of a
token. -/
theorem serve_attemptAll :
    ((Session.start options tokens).attemptAll requests).2.position <
        (Token.complete tokens).length ∧
      Gives (serve fuel requests) (start options tokens)
        ((Session.start options tokens).attemptAll requests).1
        ⟨Token.complete tokens, ((Session.start options tokens).attemptAll requests).2.position, 0,
          options⟩ := by
  obtain ⟨rounds, within⟩ := bounds_start enough
  obtain ⟨covers, gives⟩ := gives_serve rfl rounds within requests
    (Session.options_start options tokens) covers_start
  rw [Session.cursor_start, atCursor_start] at gives
  exact ⟨(List.getElem?_eq_some_iff.mp covers.getElem?).1, gives⟩

/-- **One machine replies to requests as a session does.** If they are all answered, the machine
gives the same answers, and ends at the index of the session and outside of all levels. If one is
refused, the machine gives the answers to those before it, then the same error; then too it ends
outside of all levels. -/
theorem serve_askAll :
    (∀ replies last, (Session.start options tokens).askAll requests = .ok (replies, last) →
      Gives (serve fuel requests) (start options tokens) (replies.map .ok)
        ⟨Token.complete tokens, last.position, 0, options⟩) ∧
    ∀ stop, (Session.start options tokens).askAll requests = .error stop →
      ∃ earlier replies between later after, earlier <+: requests ∧
        (Session.start options tokens).askAll earlier = .ok (replies, between) ∧
        Gives (serve fuel requests) (start options tokens)
          (replies.map .ok ++ .error stop.error :: later) after ∧ after.depth = 0 := by
  obtain ⟨-, gives⟩ := serve_attemptAll enough requests
  constructor
  · intro replies last asked
    rw [Session.attemptAll_of_askAll asked] at gives
    exact gives
  · intro stop refused
    obtain ⟨earlier, replies, between, later, begins, asked, results⟩ :=
      Session.attemptAll_of_askAll_error refused
    rw [results] at gives
    exact ⟨earlier, replies, between, later, _, begins, asked, gives, rfl⟩

end Start

end Machine

/-- **Every parse ends, and none in a fault**, whatever the tokens and whatever the limit: from some
fuel on, more of it changes nothing. Of a program, a statement and a block the machine then comes to
what the rules read from the tokens, be it a value or an error. Of one machine everything may be
asked in any order, even behind errors: each request ends in a value or an error, and behind all of
them the index is that of a token, and every level that was entered has been left. -/
theorem parse_never_faults (options : Options) (tokens : List Token) :
    ∃ enough, ∀ fuel, enough ≤ fuel →
      Machine.outcome (Machine.parseProgram fuel) options tokens =
          some (.ok (Program.parse options tokens)) ∧
        Machine.outcome (Machine.whole (Machine.parseStatement fuel)) options tokens =
          some (.ok ((Statement.parse options tokens).map .statement)) ∧
        Machine.outcome (Machine.whole (Machine.parseBlock fuel)) options tokens =
          some (.ok ((Block.parse options tokens).map .block)) ∧
        ∀ requests, ∃ results last,
          ((Machine.serve fuel requests).run (Machine.start options tokens)).run =
              some (.ok (results, last)) ∧
            results.length = requests.length ∧ last.tokens = Token.complete tokens ∧
              last.current < last.tokens.length ∧ last.depth = 0 := by
  refine ⟨(Token.complete tokens).length + options.maxNestingDepth + 1, fun fuel enough => ?_⟩
  have outside : (Machine.start options tokens).depth = 0 := rfl
  obtain ⟨rounds, within⟩ := Machine.bounds_start enough
  refine ⟨?_, ?_, ?_, fun requests => ?_⟩
  · have program := Machine.outcome_eq (Machine.follows_parseProgram outside rounds within)
    rw [Except.map_id] at program
    exact program
  · have statement := Machine.follows_parseStatement outside rounds within
    exact Machine.outcome_eq (Machine.follows_whole statement)
  · have block := Machine.follows_parseBlock outside rounds within
    exact Machine.outcome_eq (Machine.follows_whole block)
  · obtain ⟨inside, gives⟩ := Machine.serve_attemptAll enough requests
    exact ⟨_, _, gives, Session.length_attemptAll _ _, rfl, inside, rfl⟩

end BlockLanguage
