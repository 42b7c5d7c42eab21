/-
**The nesting limit does nothing but cut off.**

Two runs over the same tokens, one with a smaller limit than the other, do the same up to a block
that is nested too deep for the smaller one. There its run is refused, and whatever the other run
goes on to read does not stay within the smaller limit.

* `Cut.bind`, `CutsOff.collect`, `CutsOff.iterate`: rules that are put together.
* `cutsOff_block`, `cutsOff_statement`, `cutsOff_program`: the rules of the grammar.
* `ProgramFault.lt_countP`: before a level too many, each level was opened by a THEN or DO.
* `parse_cutOff`: programs, statements and blocks.
-/

import BlockLanguage.Proofs.Depth
import BlockLanguage.Proofs.Faults
import BlockLanguage.Proofs.WholeInput

namespace BlockLanguage

/-! ### Rules put together -/

namespace Rule

variable {α β : Type} {limit : Nat} {within : α → Prop} {within' : β → Prop}

/-- The first run is the second one, or it is refused for the limit and what the second one reads is
not within it. -/
inductive Cut (limit : Nat) (within : α → Prop) (strict loose : Except Stop (α × Cursor)) : Prop
  | same (equal : strict = loose)
  | refused {stop : Stop} (stopped : strict = .error stop)
    (cause : stop.error.cause = .nestingTooDeep limit)
    (beyond : ∀ value rest, loose = .ok (value, rest) → ¬ within value)

/-- At every cursor the run of the first rule is that of the second one, cut off. -/
def CutsOff (limit : Nat) (within : α → Prop) (strict loose : Rule α) : Prop :=
  ∀ first, Cut limit within (strict.run first) (loose.run first)

theorem CutsOff.imp {rule rule' : Rule α} {narrower : α → Prop}
    (cuts : CutsOff limit within rule rule') (implies : ∀ value, narrower value → within value) :
    CutsOff limit narrower rule rule' := by
  intro first
  cases cuts first with
  | same equal => exact .same equal
  | refused stopped cause beyond =>
    exact .refused stopped cause fun value rest read inside =>
      beyond value rest read (implies value inside)

theorem CutsOff.refl (rule : Rule α) : CutsOff limit within rule rule := fun _ => .same rfl

section Bind

variable {rule rule' : Rule α} {next next' : α → Rule β}

/-- Behind what is cut off the run is cut off, and what is not within the limit stays so. -/
theorem Cut.bind {first : Cursor} (cut : Cut limit within (rule.run first) (rule'.run first))
    (behind : ∀ value rest, rule.run first = .ok (value, rest) →
      Cut limit within' ((next value).run rest) ((next' value).run rest))
    (carries : ∀ value, ¬ within value → (next' value).Yields fun result => ¬ within' result) :
    Cut limit within' ((rule >>= next).run first) ((rule' >>= next').run first) := by
  cases cut with
  | same equal =>
    cases read : rule.run first with
    | error stop =>
      rw [run_bind_of_error read, run_bind_of_error (equal.symm.trans read)]
      exact .same rfl
    | ok step =>
      obtain ⟨value, rest⟩ := step
      rw [run_bind_of_ok read, run_bind_of_ok (equal.symm.trans read)]
      exact behind value rest read
  | refused stopped cause beyond =>
    refine .refused (run_bind_of_error stopped) cause fun result last read => ?_
    obtain ⟨value, rest, readFirst, readNext⟩ := run_bind_eq_ok_iff.mp read
    exact carries value (beyond value rest readFirst) _ _ _ readNext

theorem CutsOff.bind (cuts : CutsOff limit within rule rule')
    (behind : ∀ value, CutsOff limit within' (next value) (next' value))
    (carries : ∀ value, ¬ within value → (next' value).Yields fun result => ¬ within' result) :
    CutsOff limit within' (rule >>= next) (rule' >>= next') :=
  fun first => (cuts first).bind (fun value rest _ => behind value rest) carries

/-- Behind a rule that no limit matters to. -/
theorem CutsOff.behind (behind : ∀ value, CutsOff limit within' (next value) (next' value)) :
    CutsOff limit within' (rule >>= next) (rule >>= next') :=
  CutsOff.bind (@CutsOff.refl _ _ (fun _ => True) rule) behind
    fun _ outside => absurd trivial outside

end Bind

section Repetition

variable {goesOn : Cursor → Bool}

private theorem cut_collect {rule rule' : Rule α} (cuts : CutsOff limit within rule rule')
    (progress : Progresses goesOn rule) (progress' : Progresses goesOn rule') (first : Cursor) :
    Cut limit (fun values => ∀ value ∈ values, within value)
      ((collect goesOn rule progress).run first) ((collect goesOn rule' progress').run first) := by
  cases again : goesOn first with
  | false =>
    have stops := collectFrom_stop goesOn rule progress again
    exact .same (stops.trans (collectFrom_stop goesOn rule' progress' again).symm)
  | true =>
    rw [run_collect_of_goesOn _ _ _ again, run_collect_of_goesOn _ _ _ again]
    refine (cuts first).bind (fun value rest read => ?_) fun value outside => ?_
    · have shorter := progress _ _ _ again read
      refine (cut_collect cuts progress progress' rest).bind (fun values last _ => .same rfl)
        fun values outside => yields_pure fun all => ?_
      exact outside fun value member => all value (List.mem_cons_of_mem _ member)
    · exact .behind fun values => yields_pure fun all => outside (all value List.mem_cons_self)
termination_by first.live.length

theorem CutsOff.collect {rule rule' : Rule α} (cuts : CutsOff limit within rule rule')
    (progress : Progresses goesOn rule) (progress' : Progresses goesOn rule') :
    CutsOff limit (fun values => ∀ value ∈ values, within value)
      (collect goesOn rule progress) (collect goesOn rule' progress') :=
  cut_collect cuts progress progress'

section Iterate

variable {rule rule' : α → Rule α} (cuts : ∀ value, CutsOff limit within (rule value) (rule' value))
  (carries : ∀ value, ¬ within value → (rule' value).Yields fun result => ¬ within result)
  (progress : ∀ value, Progresses goesOn (rule value))
  (progress' : ∀ value, Progresses goesOn (rule' value))
include cuts carries

private theorem cut_iterate (value : α) (first : Cursor) :
    Cut limit within ((iterate goesOn rule progress value).run first)
      ((iterate goesOn rule' progress' value).run first) := by
  cases again : goesOn first with
  | false =>
    have stops := @iterateFrom_stop _ goesOn rule progress value _ again
    exact .same (stops.trans (@iterateFrom_stop _ goesOn rule' progress' value _ again).symm)
  | true =>
    rw [run_iterate_of_goesOn _ _ _ again, run_iterate_of_goesOn _ _ _ again]
    refine (cuts value first).bind (fun next rest read => ?_) fun next outside => ?_
    · have shorter := progress _ _ _ _ again read
      exact cut_iterate next rest
    · exact Yields.iterate carries progress' next outside
termination_by first.live.length

theorem CutsOff.iterate (value : α) :
    CutsOff limit within (iterate goesOn rule progress value)
      (iterate goesOn rule' progress' value) :=
  cut_iterate cuts carries progress progress' value

end Iterate

end Repetition

end Rule

/-! ### Contexts within a limit -/

namespace Context

variable {limit : Nat}

theorem within_iff {context : Context} :
    Within limit context.entries ↔
      ∀ asked body, context.find? asked = some body → Block.depth body ≤ limit := by
  constructor
  · intro within asked body found
    obtain ⟨entry, member, -, rfl⟩ := (lookup_eq_some_iff context.sorted).mp found
    exact within entry member
  · intro within entry member
    exact within entry.1.text entry.2
      ((lookup_eq_some_iff context.sorted).mpr ⟨entry, member, rfl, rfl⟩)

/-- With a new definition, a context stays within a limit if it was and the definition does. -/
theorem within_put_iff {before : Context} {name : Identifier} {body : Block}
    {free : Word.isPrimitive name.text = false} (absent : before.find? name.text = none) :
    Within limit (before.put name body free).entries ↔
      Within limit before.entries ∧ Block.depth body ≤ limit := by
  simp only [within_iff, find?_put]
  constructor
  · intro within
    refine ⟨fun asked found named => ?_, within name.text body (if_pos rfl)⟩
    refine within asked found ?_
    rw [if_neg, named]
    rintro rfl
    rw [absent] at named
    cases named
  · rintro ⟨within, depth⟩ asked found named
    split at named
    · cases named
      exact depth
    · exact within asked found named

end Context

/-- A program is nested within a limit if its definitions and its body are. -/
theorem Program.depth_le_iff {program : Program} {limit : Nat} :
    program.depth ≤ limit ↔
      Context.Within limit program.context.entries ∧ Block.depth program.body ≤ limit := by
  rw [depth, Context.Within]
  induction program.context.entries with
  | nil => simp
  | cons entry more ih => rw [List.foldr_cons, Nat.max_le, ih, List.forall_mem_cons, and_assoc]

/-! ### The rules of the grammar -/

namespace Grammar

open Rule

section Statement

variable {limit levels : Nat} {nested nested' : Rule Block}
  (cuts : CutsOff limit (fun body => Block.depth body < levels) nested nested')
include cuts

theorem cutsOff_ifStatement :
    CutsOff limit (fun s => s.depth ≤ levels) (ifStatement nested) (ifStatement nested') := by
  refine .behind fun _ => .behind fun test => .behind fun _ => ?_
  -- A THEN body that is too deep stays so whether an ELSE comes or not: both take the same level.
  refine cuts.bind (fun thenBody => .behind fun more => ?_) fun thenBody deep =>
    .behind fun more => ?_
  · split
    · refine cuts.bind (fun elseBody => .refl _) fun elseBody deep => ?_
      refine .behind fun _ => .behind fun _ => yields_pure fun depth => deep ?_
      rw [Statement.depth] at depth
      exact Nat.lt_of_le_of_lt (Nat.le_max_right _ _) depth
    · exact .refl _
  · split
    · refine .behind fun elseBody => .behind fun _ => .behind fun _ => yields_pure fun depth => ?_
      rw [Statement.depth] at depth
      exact deep (Nat.lt_of_le_of_lt (Nat.le_max_left _ _) depth)
    · refine .behind fun _ => .behind fun _ => yields_pure fun depth => deep ?_
      rw [Statement.depth] at depth
      exact depth

theorem cutsOff_whileStatement :
    CutsOff limit (fun s => s.depth ≤ levels) (whileStatement nested) (whileStatement nested') := by
  refine .behind fun _ => .behind fun test => .behind fun _ => ?_
  refine cuts.bind (fun body => .refl _) fun body deep => ?_
  refine .behind fun _ => .behind fun _ => yields_pure fun depth => deep ?_
  rw [Statement.depth] at depth
  exact depth

theorem cutsOff_statementWith :
    CutsOff limit (fun s => s.depth ≤ levels) (statementWith nested) (statementWith nested') := by
  intro first
  rw [run_statementWith, run_statementWith]
  split
  · exact cutsOff_ifStatement cuts first
  · split
    · exact cutsOff_whileStatement cuts first
    · exact .same rfl

theorem cutsOff_blockWith :
    CutsOff limit (fun body => Block.depth body < levels + 1) (blockWith nested)
      (blockWith nested') :=
  ((cutsOff_statementWith cuts).collect (progresses_block nested) (progresses_block nested')).imp
    fun _ depth => Block.depth_le_iff.mp (Nat.le_of_lt_succ depth)

end Statement

theorem cutsOff_inner (limit larger : Nat) {levels levels' : Nat} (le : levels ≤ levels') :
    CutsOff limit (fun body => Block.depth body < levels) (inner limit levels)
      (inner larger levels') := by
  induction levels generalizing levels' with
  | zero => exact fun first => .refused rfl rfl fun _ _ _ => Nat.not_lt_zero _
  | succ levels ih =>
    cases levels' with
    | zero => exact absurd le (Nat.not_succ_le_zero levels)
    | succ levels' => exact cutsOff_blockWith (ih (Nat.le_of_succ_le_succ le))

/-- A definition that is read leaves the context within a limit only if it was within it before and
the body is. -/
theorem yields_defined (limit : Nat) (before : Context) (name : Identifier) (body : Block)
    (free : Word.isPrimitive name.text = false) (error : Cursor → ParseError) :
    (do keyword "END"
        closingName name.text
        if (before.find? name.text).isSome then Rule.refuse error
        else return before.put name body free : Rule Context).Yields
      fun after => Context.Within limit after.entries →
        Context.Within limit before.entries ∧ Block.depth body ≤ limit := by
  refine .behind fun _ => .behind fun _ => ?_
  split
  · exact yields_refuse _ _
  · next absent => exact yields_pure (Context.within_put_iff (by simpa using absent)).mp

/-- What is not within a limit stays so with any further definition. -/
theorem yields_definition_beyond {limit : Nat} (larger : Nat) (before : Context)
    (outside : ¬ Context.Within limit before.entries) :
    (definition larger before).Yields fun after => ¬ Context.Within limit after.entries := by
  refine .behind fun _ => .behind fun named => .behind fun name => ?_
  split
  · refine .behind fun _ => .behind fun body first after last read within => outside ?_
    exact (yields_defined limit before name body ‹_› _ first after last read within).1
  · exact yields_refuse _ _

section Limits

variable {limit larger : Nat} (le : limit ≤ larger)
include le

theorem cutsOff_block :
    CutsOff limit (fun body => Block.depth body ≤ limit) (block limit) (block larger) :=
  (cutsOff_blockWith (cutsOff_inner limit larger le)).imp fun _ => Nat.lt_succ_of_le

theorem cutsOff_statement :
    CutsOff limit (fun s => s.depth ≤ limit) (statement limit) (statement larger) :=
  cutsOff_statementWith (cutsOff_inner limit larger le)

theorem cutsOff_definition (before : Context) :
    CutsOff limit (fun after => Context.Within limit after.entries) (definition limit before)
      (definition larger before) := by
  refine .behind fun _ => .behind fun named => .behind fun name => ?_
  split
  · refine .behind fun _ => (cutsOff_block le).bind (fun body => .refl _)
      fun body deep first after last read within => deep ?_
    exact (yields_defined limit before name body ‹_› _ first after last read within).2
  · exact .refl _

theorem cutsOff_definitions :
    CutsOff limit (fun context => Context.Within limit context.entries) (definitions limit)
      (definitions larger) :=
  CutsOff.iterate (cutsOff_definition le) (yields_definition_beyond larger)
    (progresses_definition limit) (progresses_definition larger) .empty

theorem cutsOff_program :
    CutsOff limit (fun program => program.depth ≤ limit) (program limit) (program larger) := by
  simp only [Program.depth_le_iff]
  refine .behind fun _ => .behind fun name => .behind fun _ => .behind fun cursor => ?_
  split
  · refine (cutsOff_definitions le).bind (fun context => .behind fun _ => ?_)
      fun context outside => .behind fun _ => .behind fun body => .behind fun _ => .behind fun _ =>
        .behind fun _ => yields_pure fun both => outside both.1
    exact (cutsOff_block le).bind (fun body => .refl _) fun body deep => .behind fun _ =>
      .behind fun _ => .behind fun _ => yields_pure fun both => deep both.2
  · exact .refl _

end Limits

theorem cutsOff_whole {α : Type} {limit : Nat} {within : α → Prop} {rule rule' : Rule α}
    (cuts : CutsOff limit within rule rule') :
    CutsOff limit within (whole rule) (whole rule') :=
  cuts.bind (fun _ => .refl _) fun _ outside => .behind fun _ => yields_pure outside

theorem yields_whole {α : Type} {rule : Rule α} {property : α → Prop}
    (yields : rule.Yields property) : (whole rule).Yields property :=
  yields.bind fun _ holds => .behind fun _ => yields_pure holds

end Grammar

/-! ### Levels are opened by tokens -/

/-- Up to a level too many, a THEN or DO has opened each level and this one as well. -/
theorem BlockFault.lt_countP {limit levels deepest : Nat} {first : Cursor} {error : ParseError}
    (fault : BlockFault limit levels first error) (cause : error.cause = .nestingTooDeep deepest) :
    levels < first.remaining.countP (·.opensBlock) := by
  cases fault with
  | unexpected ahead expected =>
    rw [Cursor.unexpected] at cause
    split at cause <;> cases cause
  | invalidCondition ahead more help => cases cause
  | @tooDeep opening passed passes opens deep =>
    obtain ⟨behind, front⟩ : ∃ behind, opening.remaining = opening.front :: behind := by
      rw [Cursor.remaining, Cursor.front]
      cases opening.live <;> exact ⟨_, rfl⟩
    rw [passes.remaining_eq, front, List.countP_append, List.countP_cons_of_pos opens]
    omega

theorem ProgramFault.lt_countP {limit deepest : Nat} {first : Cursor} {error : ParseError}
    (fault : ProgramFault limit first error) (cause : error.cause = .nestingTooDeep deepest) :
    limit < first.remaining.countP (·.opensBlock) := by
  cases fault with
  | inBlock fault => exact fault.lt_countP cause
  | mismatchedClosingName | reservedName | duplicateInstruction => cases cause

/-- The mark that completes a token list opens no block. -/
theorem Token.countP_complete (tokens : List Token) :
    (complete tokens).countP (·.opensBlock) = tokens.countP (·.opensBlock) := by
  have none : ∀ span, (endOfInput span).opensBlock = false := fun _ => by
    simp [opensBlock, endOfInput, endOfInputLexeme]
  rw [complete]
  split
  · next empty =>
    rw [List.getLast?_eq_none_iff.mp empty, List.countP_singleton, none]
    rfl
  · split
    · rfl
    · rw [List.countP_append, List.countP_singleton, none]
      rfl

/-! ### Parses -/

/-- The first result, with a limit for the nesting, is the second one, which has a larger limit, cut
off at the first level too many. -/
structure CutOff {α : Type} (limit : Nat) (tokens : List Token) (depth : α → Nat)
    (strict loose : Except ParseError α) : Prop where
  same_or_refused : strict = loose ∨
    ∃ error, strict = .error error ∧ error.cause = .nestingTooDeep limit
  kept : ∀ value, loose = .ok value → (strict = .ok value ↔ depth value ≤ limit)
  within : ∀ value, strict = .ok value → depth value ≤ limit
  ample : tokens.countP (·.opensBlock) ≤ limit →
    ∀ error levels, strict = .error error → error.cause ≠ .nestingTooDeep levels

/-- The parses of rules are cut off as the rules are. -/
theorem Rule.cutOff_parse {α : Type} {limit : Nat} {depth : α → Nat} {rule rule' : Rule α}
    (cuts : CutsOff limit (fun value => depth value ≤ limit) rule rule')
    (yields : rule.Yields fun value => depth value ≤ limit)
    (fails : rule.FailsBy (programFaults limit)) (tokens : List Token) :
    CutOff limit tokens depth (rule.parse tokens) (rule'.parse tokens) where
  same_or_refused := by
    cases cuts (.ofTokens tokens) with
    | same equal =>
      rw [parse, parse, equal]
      exact .inl rfl
    | refused stopped cause beyond =>
      exact .inr ⟨_, parse_eq_error_iff.mpr ⟨_, stopped, rfl⟩, cause⟩
  kept value parsed := by
    obtain ⟨last, read⟩ := parse_eq_ok_iff.mp parsed
    cases cuts (.ofTokens tokens) with
    | same equal =>
      have readToo := equal.trans read
      exact iff_of_true (parse_eq_ok_iff.mpr ⟨last, readToo⟩) (yields _ _ _ readToo)
    | refused stopped cause beyond =>
      refine iff_of_false (fun parsedToo => ?_) (beyond value last read)
      obtain ⟨lastToo, readToo⟩ := parse_eq_ok_iff.mp parsedToo
      cases stopped.symm.trans readToo
  within value parsed := by
    obtain ⟨last, read⟩ := parse_eq_ok_iff.mp parsed
    exact yields _ _ _ read
  ample few error levels failed cause := by
    obtain ⟨stop, refused, rfl⟩ := parse_eq_error_iff.mp failed
    have many := ProgramFault.lt_countP (fails _ _ refused) cause
    rw [Cursor.remaining_ofTokens, Token.countP_complete] at many
    exact Nat.not_lt_of_le few many

/-- **The nesting limit is a pure cut-off**, in programs, statements and blocks. -/
theorem parse_cutOff {limit larger : Nat} (le : limit ≤ larger) (tokens : List Token) :
    CutOff limit tokens Program.depth (Program.parse ⟨limit⟩ tokens)
      (Program.parse ⟨larger⟩ tokens) ∧
    CutOff limit tokens Statement.depth (Statement.parse ⟨limit⟩ tokens)
      (Statement.parse ⟨larger⟩ tokens) ∧
    CutOff limit tokens Block.depth (Block.parse ⟨limit⟩ tokens)
      (Block.parse ⟨larger⟩ tokens) := by
  refine ⟨?_, ?_, ?_⟩
  · have yields := Grammar.yields_program limit
    simp only [← Program.depth_le_iff] at yields
    exact Rule.cutOff_parse (Grammar.cutsOff_program le) yields (Grammar.failsBy_program limit)
      tokens
  · have fails := Grammar.failsBy_whole (Grammar.failsBy_statement limit)
    exact Rule.cutOff_parse (Grammar.cutsOff_whole (Grammar.cutsOff_statement le))
      (Grammar.yields_whole (Grammar.yields_statement limit))
      (Grammar.failsBy_program_of_block fails) tokens
  · have fails := Grammar.failsBy_whole (Grammar.failsBy_block limit)
    exact Rule.cutOff_parse (Grammar.cutsOff_whole (Grammar.cutsOff_block le))
      (Grammar.yields_whole (Grammar.yields_block limit))
      (Grammar.failsBy_program_of_block fails) tokens

/-- With one level a WHILE is read, and with none it is refused. -/
theorem parse_cutOff_while :
    ∃ tokens s, tokens = Token.ofLexemes ["WHILE", "true", "DO", "move", "END", "WHILE"] ∧
      Statement.parse ⟨1⟩ tokens = .ok s ∧ ∃ error, Statement.parse ⟨0⟩ tokens = .error error ∧
        error.cause = .nestingTooDeep 0 := by
  obtain ⟨tokens, spelled⟩ : ∃ tokens,
    tokens = Token.ofLexemes ["WHILE", "true", "DO", "move", "END", "WHILE"] := ⟨_, rfl⟩
  have plain : Token.Plain tokens := by
    rw [spelled]
    decide +kernel
  have read : Statement.parse ⟨1⟩ tokens =
      .ok (.whileDo .always [.call ⟨"move", by decide +kernel⟩]) :=
    (Statement.parse_eq_ok_iff plain).mpr
      ⟨by rw [spelled]; decide +kernel, by simp [Statement.depth, Block.depth]⟩
  obtain ⟨-, cut, -⟩ := parse_cutOff (Nat.zero_le 1) tokens
  rcases cut.same_or_refused with same | refused
  · have depth := cut.within _ (same.trans read)
    simp [Statement.depth] at depth
  · exact ⟨tokens, _, spelled, read, refused⟩

end BlockLanguage
