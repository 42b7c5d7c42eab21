/-
**What the grammar reads depends on the tokens that it has seen.**

At cursors that are alike every rule of the grammar does the same. Only the rule for definitions
needs care: its errors lie in the name that it has passed, and for a name that is defined twice the
whole definition has to be known.

* `alike_block`, `alike_statement`, `alike_definition`, `alike_program`: each rule is alike to
  itself.
-/

import BlockLanguage.Grammar.Program
import BlockLanguage.Proofs.Locality

namespace BlockLanguage.Grammar

open Rule

variable {likeness : Likeness}

/-! ### Single tokens -/

theorem alike_optional (lexeme : String) :
    (optional lexeme).Alike likeness (optional lexeme) := by
  refine alike_of_judge (fun text _ => if text = lexeme then .take true else .leave false)
    fun cursor => ?_
  rw [run_optional]
  simp only [stands, decide_eq_true_eq]
  split <;> rfl

theorem alike_keyword (lexeme : String) : (keyword lexeme).Alike likeness (keyword lexeme) := by
  refine alike_of_judge (fun text ended =>
    if text = lexeme then .take () else .unexpected s!"'{lexeme}'" text ended) fun cursor => ?_
  rw [run_keyword, ← Verdict.result_unexpected]
  simp only [stands, decide_eq_true_eq]
  split <;> rfl

theorem alike_identifier : identifier.Alike likeness identifier := by
  refine alike_of_judge (fun text ended =>
    (Identifier.ofText? text).elim (.unexpected "an identifier" text ended) .take) fun cursor => ?_
  rw [run_identifier, ← Verdict.result_unexpected]
  cases Identifier.ofText? cursor.front.lexeme <;> rfl

theorem alike_condition : condition.Alike likeness condition := by
  refine alike_of_judge (fun text ended =>
    if ended then .unexpected "a condition" text ended
    else (Condition.ofText? text).elim (.refuse (.invalidCondition text)
      (some "conditions look like `next-is-empty`, `random` or `true`")) .take) fun cursor => ?_
  rw [run_condition, ← Verdict.result_unexpected]
  cases cursor.atEnd
  · cases Condition.ofText? cursor.front.lexeme <;> rfl
  · rfl

theorem alike_closingName (name : String) :
    (closingName name).Alike likeness (closingName name) := by
  refine alike_of_judge (fun text ended =>
    if text = name then .take ()
    else if Word.isIdentifier text then .refuse (.mismatchedClosingName name text)
      (some s!"close it with `END {name}`")
    else .unexpected s!"closing name '{name}'" text ended) fun cursor => ?_
  rw [run_closingName, ← Verdict.result_unexpected]
  split
  · rfl
  · split <;> rfl

theorem alike_endOfInput : endOfInput.Alike likeness endOfInput := by
  refine alike_of_judge (fun text ended =>
    if ended then .leave () else .unexpected "end of input" text ended) fun cursor => ?_
  rw [run_endOfInput, ← Verdict.result_unexpected]
  cases cursor.atEnd <;> rfl

theorem alike_whole {α : Type} {rule : Rule α} (same : rule.Alike likeness rule) :
    (whole rule).Alike likeness (whole rule) :=
  same.bind fun value => alike_endOfInput.bind fun _ => alike_pure value

/-! ### Statements and blocks -/

theorem alike_callStatement : callStatement.Alike likeness callStatement :=
  alike_identifier.bind fun _ => alike_pure _

section Statement

variable {nested : Rule Block} (same : nested.Alike likeness nested)
include same

theorem alike_ifStatement : (ifStatement nested).Alike likeness (ifStatement nested) := by
  refine (alike_keyword _).bind fun _ => alike_condition.bind fun test => ?_
  refine (alike_keyword _).bind fun _ => same.bind fun thenBody => ?_
  refine (alike_optional _).bind fun more => ?_
  split
  · refine same.bind fun elseBody => (alike_keyword _).bind fun _ => ?_
    exact (alike_keyword _).bind fun _ => alike_pure _
  · exact (alike_keyword _).bind fun _ => (alike_keyword _).bind fun _ => alike_pure _

theorem alike_whileStatement : (whileStatement nested).Alike likeness (whileStatement nested) := by
  refine (alike_keyword _).bind fun _ => alike_condition.bind fun test => ?_
  refine (alike_keyword _).bind fun _ => same.bind fun body => ?_
  exact (alike_keyword _).bind fun _ => (alike_keyword _).bind fun _ => alike_pure _

theorem alike_statementWith : (statementWith nested).Alike likeness (statementWith nested) := by
  have whenIf := alike_ifStatement same
  have whenWhile := alike_whileStatement same
  refine ⟨fun {cursor stop} refused => ?_, fun {cursor cursor'} alike inside => ?_⟩
  · rw [run_statementWith] at refused
    split at refused
    · exact whenIf.late refused
    · split at refused
      · exact whenWhile.late refused
      · split at refused
        · exact (@alike_callStatement likeness).late refused
        · exact (@alike_unexpected likeness Statement "a statement").late refused
  · rw [run_statementWith, run_statementWith, (alike.front inside).lexeme]
    split
    · exact whenIf.agrees alike inside
    · split
      · exact whenWhile.agrees alike inside
      · split
        · exact alike_callStatement.agrees alike inside
        · exact (alike_unexpected "a statement").agrees alike inside

theorem alike_blockWith : (blockWith nested).Alike likeness (blockWith nested) :=
  @alike_collect _ _ _ _ (alike_statementWith same) _
    (fun text ended => !decide (text = "END") && !decide (text = "ELSE") && !ended) fun _ => rfl

end Statement

theorem alike_inner (limit levels : Nat) :
    (inner limit levels).Alike likeness (inner limit levels) := by
  induction levels with
  | zero => exact alike_refuse _ _
  | succ levels ih => exact alike_blockWith ih

theorem alike_block (limit : Nat) : (block limit).Alike likeness (block limit) :=
  alike_blockWith (alike_inner _ _)

theorem alike_statement (limit : Nat) : (statement limit).Alike likeness (statement limit) :=
  alike_statementWith (alike_inner _ _)

/-! ### Programs -/

/-- The refusal of a name that is defined twice, behind the second definition of it. -/
theorem alike_repeated {named named' : Cursor} {name : String}
    (position : named'.position = named.position + likeness.shift)
    (span : likeness.places named.front.span named'.front.span) :
    (refuse fun _ => named.error (.duplicateInstruction name) none : Rule Context).Alike likeness
      (refuse fun _ => named'.error (.duplicateInstruction name) none) where
  late refused := by
    cases refused
    exact Nat.lt_succ_self _
  agrees alike _ := .of_refused ⟨rfl, position, span, rfl, alike.position⟩

/-- The rest of a definition behind its name. -/
private theorem alike_behindName (limit : Nat) (before : Context) {named named' : Cursor}
    (position : named'.position = named.position + likeness.shift)
    (span : likeness.places named.front.span named'.front.span) (name : Identifier)
    (free : Word.isPrimitive name.text = false) :
    Rule.Alike likeness
      (do keyword "IS"
          let body ← block limit
          keyword "END"
          closingName name.text
          if (before.find? name.text).isSome then
            Rule.refuse fun _ => named.error (.duplicateInstruction name.text) none
          else return before.put name body free)
      (do keyword "IS"
          let body ← block limit
          keyword "END"
          closingName name.text
          if (before.find? name.text).isSome then
            Rule.refuse fun _ => named'.error (.duplicateInstruction name.text) none
          else return before.put name body free) := by
  refine (alike_keyword _).bind fun _ => (alike_block limit).bind fun body => ?_
  refine (alike_keyword _).bind fun _ => (alike_closingName _).bind fun _ => ?_
  split
  · exact alike_repeated position span
  · exact alike_pure _

theorem alike_definition (limit : Nat) (before : Context) :
    (definition limit before).Alike likeness (definition limit before) := by
  refine (alike_keyword _).bind fun _ => ⟨fun {named stop} refused => ?_, ?_⟩
  · rw [run_bind_of_ok (run_here named)] at refused
    rcases run_bind_eq_error_iff.mp refused with here | ⟨name, rest, read, behind⟩
    · exact (@alike_identifier likeness).late here
    · split at behind
      · obtain ⟨passed, passes⟩ := identifier.forward read
        have later := (@alike_behindName ⟨fun _ _ => True, 0, 0⟩ limit before named named rfl
          trivial name ‹_›).late behind
        rw [passes.position] at later
        omega
      · cases behind
        exact Nat.lt_succ_self _
  · intro named named' alike inside
    have fronts := alike.front inside
    rw [run_bind_of_ok (run_here named), run_bind_of_ok (run_here named')]
    have read := run_identifier named
    have read' := run_identifier named'
    rw [fronts.lexeme] at read'
    cases found : Identifier.ofText? named.front.lexeme with
    | none =>
      rw [found] at read read'
      rw [run_bind_of_error read, run_bind_of_error read', Cursor.unexpected_eq,
        Cursor.unexpected_eq, fronts.lexeme, alike.atEnd inside]
      exact .of_refused ⟨rfl, alike.position, fronts.span, rfl, alike.position⟩
    | some name =>
      rw [found] at read read'
      rw [run_bind_of_ok read, run_bind_of_ok read']
      split
      · exact (alike_behindName limit before alike.position fronts.span name ‹_›).agrees_of_alike
          (alike.advance inside)
      · exact .of_refused ⟨rfl, alike.position, fronts.span, rfl, (alike.advance inside).position⟩

theorem alike_definitions (limit : Nat) :
    (definitions limit).Alike likeness (definitions limit) :=
  @alike_iterate _ _ _ _ (alike_definition limit) _ (fun text _ => text = "INSTRUCTION")
    (fun _ => rfl) _

theorem alike_program (limit : Nat) : (program limit).Alike likeness (program limit) := by
  refine (alike_keyword _).bind fun _ => alike_identifier.bind fun name => ?_
  refine (alike_keyword _).bind fun _ => ?_
  refine @alike_here_ite _ _ _
    (fun text _ => decide (text = "INSTRUCTION") || decide (text = "BEGIN")) (fun _ => rfl) _ _ ?_
    (alike_unexpected _)
  refine (alike_definitions limit).bind fun context => (alike_keyword _).bind fun _ => ?_
  refine (alike_block limit).bind fun body => (alike_keyword _).bind fun _ => ?_
  exact (alike_closingName _).bind fun _ => alike_endOfInput.bind fun _ => alike_pure _

end BlockLanguage.Grammar
