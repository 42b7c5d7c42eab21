/-
**Statements and blocks are read exactly.**

Within the nesting limit a statement is read from the lexemes that spell it, whatever comes behind
them, and from no others; a block besides ends only before END, before ELSE or at the end. What is
spelled right but nested deeper is refused as too deep.

* `Outcome`: how the reading of what is spelled can end.
* `ReadsBlocks`: what the rule for the blocks inside a statement has to do, with `sound` and
  `outcome`; `readsBlocks_inner` shows it by induction on the levels left.
* `block_eq_ok_iff`, `statement_eq_ok_iff`: what the rules read, and nothing else.
* `Block.lexemes_append_inj`: where a block may end, its spelling says which block it is.
-/

import BlockLanguage.Grammar.Statement
import BlockLanguage.Proofs.Reading

namespace BlockLanguage

theorem Identifier.text_ne_of_keyword (name : Identifier) {lexeme : String}
    (listed : lexeme ∈ Word.keywords) : name.text ≠ lexeme := by
  rintro rfl
  have valid := name.valid
  have keyword : Word.isKeyword name.text = true := List.contains_iff_mem.mpr listed
  simp [Word.isIdentifier, keyword] at valid

namespace Grammar

variable {first behind last : Cursor}

/-! ### How the reading of what is spelled ends -/

section Outcome

variable {limit : Nat}

/-- How the reading of what is spelled ends: with a value, or because a block is nested too deep, or
because a name is defined twice. -/
inductive Outcome {α : Type} (limit : Nat) (good : α → Cursor → Prop) (deep repeats : Prop) :
    Except Stop (α × Cursor) → Prop
  | read {value : α} {rest : Cursor} (holds : good value rest) :
    Outcome limit good deep repeats (.ok (value, rest))
  | tooDeep {stop : Stop} (cause : stop.error.cause = .nestingTooDeep limit) (holds : deep) :
    Outcome limit good deep repeats (.error stop)
  | repeated {stop : Stop} {name : String} (cause : stop.error.cause = .duplicateInstruction name)
    (holds : repeats) : Outcome limit good deep repeats (.error stop)

namespace Outcome

theorem imp {α : Type} {good good' : α → Cursor → Prop} {deep deep' repeats repeats' : Prop}
    {result : Except Stop (α × Cursor)} (outcome : Outcome limit good deep repeats result)
    (goodImp : ∀ value rest, good value rest → good' value rest) (deepImp : deep → deep')
    (repeatsImp : repeats → repeats') : Outcome limit good' deep' repeats' result := by
  cases outcome with
  | read holds => exact .read (goodImp _ _ holds)
  | tooDeep cause holds => exact .tooDeep cause (deepImp holds)
  | repeated cause holds => exact .repeated cause (repeatsImp holds)

/-- Two rules, one behind the other, end as the first does, or as the second does behind it. -/
theorem bind {α β : Type} {good : α → Cursor → Prop} {good' : β → Cursor → Prop}
    {deep deep' repeats repeats' : Prop} {rule : Rule α} {next : α → Rule β}
    (outcome : Outcome limit good deep repeats (rule.run first)) (deepImp : deep → deep')
    (repeatsImp : repeats → repeats')
    (behind : ∀ value rest, good value rest →
      Outcome limit good' deep' repeats' ((next value).run rest)) :
    Outcome limit good' deep' repeats' ((rule >>= next).run first) := by
  rw [Rule.run_bind]
  cases result : rule.run first with
  | error stop =>
    rw [result] at outcome
    cases outcome with
    | tooDeep cause holds => exact .tooDeep cause (deepImp holds)
    | repeated cause holds => exact .repeated cause (repeatsImp holds)
  | ok step =>
    rw [result] at outcome
    cases outcome with
    | read holds => exact behind _ _ holds

/-- What is neither nested too deep nor defined twice is read. -/
theorem exists_run_eq_ok {α : Type} {good : α → Cursor → Prop} {deep repeats : Prop}
    {result : Except Stop (α × Cursor)} (outcome : Outcome limit good deep repeats result)
    (within : ¬ deep) (fresh : ¬ repeats) :
    ∃ value rest, result = .ok (value, rest) ∧ good value rest := by
  cases outcome with
  | read holds => exact ⟨_, _, rfl, holds⟩
  | tooDeep _ holds => exact absurd holds within
  | repeated _ holds => exact absurd holds fresh

/-- What is not as it should be is refused for its nesting, if no name is defined twice. -/
theorem exists_run_eq_error {α : Type} {good : α → Cursor → Prop} {deep repeats : Prop}
    {result : Except Stop (α × Cursor)} (outcome : Outcome limit good deep repeats result)
    (never : ∀ value rest, ¬ good value rest) (fresh : ¬ repeats) :
    ∃ stop, result = .error stop ∧ stop.error.cause = .nestingTooDeep limit := by
  cases outcome with
  | read holds => exact absurd holds (never _ _)
  | tooDeep cause _ => exact ⟨_, rfl, cause⟩
  | repeated _ holds => exact absurd holds fresh

end Outcome

end Outcome

/-! ### How IF and WHILE open and close -/

section Pieces

variable {α : Type} {opens enters closes : String}

/-- Behind the keywords and the condition that open an IF or WHILE, the rule for its rest goes
on. -/
theorem run_opening_of_reads {next : Condition → Rule α} {test : Condition}
    (marked : first.Marked) (reads : first.Reads [opens, test.text, enters] behind)
    (opensListed : opens ∈ Word.keywords := by decide)
    (entersListed : enters ∈ Word.keywords := by decide) :
    (do keyword opens; let test ← condition; keyword enters; next test : Rule α).run first =
      (next test).run behind := by
  obtain ⟨behindOpens, atOpens, reads⟩ := Cursor.reads_cons_iff.mp reads
  obtain ⟨behindTest, atTest, atEnters⟩ := Cursor.reads_cons_iff.mp reads
  have markedTest := (atOpens.trans atTest).marked marked
  rw [Rule.run_bind_of_ok ((keyword_eq_ok_iff marked opensListed).mpr atOpens),
    Rule.run_bind_of_ok (condition_eq_ok_iff.mpr atTest),
    Rule.run_bind_of_ok ((keyword_eq_ok_iff markedTest entersListed).mpr atEnters)]

theorem run_opening_eq_ok_iff {next : Condition → Rule α} {value : α}
    (marked : first.Marked) (opensListed : opens ∈ Word.keywords := by decide)
    (entersListed : enters ∈ Word.keywords := by decide) :
    (do keyword opens; let test ← condition; keyword enters; next test : Rule α).run first =
        .ok (value, last) ↔
      ∃ test behind, first.Reads [opens, test.text, enters] behind ∧
        (next test).run behind = .ok (value, last) := by
  constructor
  · intro read
    obtain ⟨_, behindOpens, atOpens, read⟩ := Rule.run_bind_eq_ok_iff.mp read
    obtain ⟨test, behindTest, atTest, read⟩ := Rule.run_bind_eq_ok_iff.mp read
    obtain ⟨_, behind, atEnters, read⟩ := Rule.run_bind_eq_ok_iff.mp read
    have readsOpens := (keyword_eq_ok_iff marked opensListed).mp atOpens
    have readsTest := readsOpens.trans (condition_eq_ok_iff.mp atTest)
    have readsEnters := (keyword_eq_ok_iff (readsTest.marked marked) entersListed).mp atEnters
    exact ⟨test, behind, readsTest.trans readsEnters, read⟩
  · rintro ⟨test, behind, reads, read⟩
    rw [run_opening_of_reads marked reads opensListed entersListed]
    exact read

/-- The keywords that close an IF or WHILE are all that is read behind its blocks. -/
theorem run_closing_eq_ok_iff {value found : α} (marked : first.Marked)
    (closesListed : closes ∈ Word.keywords := by decide) :
    (do keyword "END"; keyword closes; pure value : Rule α).run first = .ok (found, last) ↔
      found = value ∧ first.Reads ["END", closes] last := by
  constructor
  · intro read
    obtain ⟨_, behindEnd, atEnd, read⟩ := Rule.run_bind_eq_ok_iff.mp read
    obtain ⟨_, behind, atCloses, read⟩ := Rule.run_bind_eq_ok_iff.mp read
    have readsEnd := (keyword_eq_ok_iff marked).mp atEnd
    have readsCloses := (keyword_eq_ok_iff (readsEnd.marked marked) closesListed).mp atCloses
    cases read
    exact ⟨rfl, readsEnd.trans readsCloses⟩
  · rintro ⟨rfl, reads⟩
    obtain ⟨behindEnd, atEnd, atCloses⟩ := Cursor.reads_cons_iff.mp reads
    rw [Rule.run_bind_of_ok ((keyword_eq_ok_iff marked).mpr atEnd),
      Rule.run_bind_of_ok
        ((keyword_eq_ok_iff (atEnd.marked marked) closesListed).mpr atCloses)]
    rfl

end Pieces

/-! ### Where a block goes on and where it ends -/

theorem blockGoesOn_eq_false_iff {cursor : Cursor} :
    blockGoesOn cursor = false ↔
      cursor.front.lexeme = "END" ∨ cursor.front.lexeme = "ELSE" ∨ cursor.atEnd = true := by
  rw [← stands_iff, ← stands_iff, blockGoesOn]
  cases stands "END" cursor <;> cases stands "ELSE" cursor <;> simp

theorem blockGoesOn_of_end {more : List String} (reads : first.Reads ("END" :: more) last) :
    blockGoesOn first = false :=
  blockGoesOn_eq_false_iff.mpr (.inl reads.front_eq)

theorem blockGoesOn_of_else {more : List String} (reads : first.Reads ("ELSE" :: more) last) :
    blockGoesOn first = false :=
  blockGoesOn_eq_false_iff.mpr (.inr (.inl reads.front_eq))

/-- A statement begins with a lexeme that ends no block. -/
theorem exists_lexemes_eq_cons (s : Statement) :
    ∃ lexeme more, s.lexemes = lexeme :: more ∧ lexeme ≠ "END" ∧ lexeme ≠ "ELSE" := by
  cases s with
  | ifThen test body => exact ⟨"IF", _, by rw [Statement.lexemes]; rfl, by decide, by decide⟩
  | ifElse test thenBody elseBody =>
    exact ⟨"IF", _, by rw [Statement.lexemes]; rfl, by decide, by decide⟩
  | whileDo test body => exact ⟨"WHILE", _, by rw [Statement.lexemes]; rfl, by decide, by decide⟩
  | call name =>
    exact ⟨name.text, [], by rw [Statement.lexemes], name.text_ne_of_keyword (by decide),
      name.text_ne_of_keyword (by decide)⟩

/-- Where a statement is ahead, a block goes on. -/
theorem blockGoesOn_of_statement {s : Statement} (reads : first.Reads s.lexemes last) :
    blockGoesOn first = true := by
  obtain ⟨lexeme, more, spelled, notEnd, notElse⟩ := exists_lexemes_eq_cons s
  rw [spelled] at reads
  refine eq_true_of_ne_false fun ends => ?_
  rcases blockGoesOn_eq_false_iff.mp ends with here | here | here
  · exact notEnd (reads.front_eq.symm.trans here)
  · exact notElse (reads.front_eq.symm.trans here)
  · exact Bool.false_ne_true (reads.atEnd_eq.symm.trans here)

/-! ### Statements, given the rule for the blocks inside -/

/-- A rule reads exactly the blocks that are spelled where it begins, that end where it stops, and
that stay below a number of levels; what is spelled deeper it refuses for the limit. -/
structure ReadsBlocks (limit levels : Nat) (nested : Rule Block) : Prop where
  sound : ∀ {first last : Cursor} {body : Block}, first.Marked →
    nested.run first = .ok (body, last) →
      first.Reads (Block.lexemes body) last ∧ Block.depth body < levels ∧ blockGoesOn last = false
  outcome : ∀ {first last : Cursor} {body : Block}, first.Marked →
    first.Reads (Block.lexemes body) last → blockGoesOn last = false →
      Outcome limit (fun found rest => found = body ∧ rest = last ∧ Block.depth body < levels)
        (levels ≤ Block.depth body) False (nested.run first)

section Statements

variable {limit levels : Nat} {nested : Rule Block} {s : Statement}

theorem ifStatement_sound (exact : ReadsBlocks limit levels nested) (marked : first.Marked)
    (read : (ifStatement nested).run first = .ok (s, last)) :
    first.Reads s.lexemes last ∧ s.depth ≤ levels := by
  obtain ⟨test, behind, opening, read⟩ :=
    (run_opening_eq_ok_iff marked).mp read
  have markedBehind := opening.marked marked
  obtain ⟨thenBody, behindThen, atThen, read⟩ := Rule.run_bind_eq_ok_iff.mp read
  obtain ⟨readsThen, thenDepth, -⟩ := exact.sound markedBehind atThen
  have markedThen := readsThen.marked markedBehind
  obtain ⟨more, behindElse, atElse, read⟩ := Rule.run_bind_eq_ok_iff.mp read
  cases more with
  | false =>
    rw [(optional_eq_ok_false_iff.mp atElse).2, if_neg Bool.false_ne_true] at read
    obtain ⟨rfl, closing⟩ := (run_closing_eq_ok_iff markedThen).mp read
    rw [Statement.lexemes, Statement.depth]
    exact ⟨(opening.trans readsThen).trans closing, thenDepth⟩
  | true =>
    rw [if_pos rfl] at read
    have readsElse := (optional_eq_ok_true_iff markedThen).mp atElse
    obtain ⟨elseBody, behindBody, atBody, read⟩ := Rule.run_bind_eq_ok_iff.mp read
    obtain ⟨readsBody, elseDepth, -⟩ := exact.sound (readsElse.marked markedThen) atBody
    have markedBody := (readsElse.trans readsBody).marked markedThen
    obtain ⟨rfl, closing⟩ := (run_closing_eq_ok_iff markedBody).mp read
    rw [Statement.lexemes, Statement.depth]
    refine ⟨?_, Nat.max_lt.mpr ⟨thenDepth, elseDepth⟩⟩
    exact (opening.trans readsThen).trans (readsElse.trans readsBody) |>.trans closing

theorem whileStatement_sound (exact : ReadsBlocks limit levels nested) (marked : first.Marked)
    (read : (whileStatement nested).run first = .ok (s, last)) :
    first.Reads s.lexemes last ∧ s.depth ≤ levels := by
  obtain ⟨test, behind, opening, read⟩ :=
    (run_opening_eq_ok_iff marked).mp read
  have markedBehind := opening.marked marked
  obtain ⟨body, behindBody, atBody, read⟩ := Rule.run_bind_eq_ok_iff.mp read
  obtain ⟨readsBody, depth, -⟩ := exact.sound markedBehind atBody
  obtain ⟨rfl, closing⟩ :=
    (run_closing_eq_ok_iff (readsBody.marked markedBehind)).mp read
  rw [Statement.lexemes, Statement.depth]
  exact ⟨(opening.trans readsBody).trans closing, depth⟩

/-- A call is the identifier that it calls. -/
theorem callStatement_eq_ok_iff (marked : first.Marked) :
    callStatement.run first = .ok (s, last) ↔
      ∃ name : Identifier, s = .call name ∧ first.Reads [name.text] last := by
  constructor
  · intro read
    obtain ⟨name, behind, atName, read⟩ := Rule.run_bind_eq_ok_iff.mp read
    cases read
    exact ⟨name, rfl, (identifier_eq_ok_iff marked).mp atName⟩
  · rintro ⟨name, rfl, reads⟩
    rw [callStatement, Rule.run_bind_of_ok ((identifier_eq_ok_iff marked).mpr reads)]
    rfl

/-- What is read as a statement is spelled by it, and within the limit. -/
theorem statementWith_sound (exact : ReadsBlocks limit levels nested) (marked : first.Marked)
    (read : (statementWith nested).run first = .ok (s, last)) :
    first.Reads s.lexemes last ∧ s.depth ≤ levels := by
  rw [run_statementWith] at read
  split at read
  · exact ifStatement_sound exact marked read
  · split at read
    · exact whileStatement_sound exact marked read
    · split at read
      · obtain ⟨name, rfl, reads⟩ := (callStatement_eq_ok_iff marked).mp read
        rw [Statement.lexemes, Statement.depth]
        exact ⟨reads, Nat.zero_le _⟩
      · cases read

/-- **A statement is read from its lexemes**, whatever comes behind them, unless it is nested too
deep. -/
theorem statementWith_outcome (exact : ReadsBlocks limit levels nested) (marked : first.Marked)
    (reads : first.Reads s.lexemes last) :
    Outcome limit (fun found rest => found = s ∧ rest = last ∧ s.depth ≤ levels)
      (levels < s.depth) False ((statementWith nested).run first) := by
  cases s with
  | ifThen test body =>
    rw [Statement.lexemes] at reads
    rw [Statement.depth]
    obtain ⟨behindBody, reads, closing⟩ := Cursor.reads_append_iff.mp reads
    obtain ⟨behind, opening, readsBody⟩ := Cursor.reads_append_iff.mp reads
    have markedBehind := opening.marked marked
    have noElse : stands "ELSE" behindBody = false := by
      refine eq_false_of_ne_true fun here => ?_
      exact absurd (closing.front_eq.symm.trans (stands_iff.mp here)) (by decide)
    have closes := (run_closing_eq_ok_iff (readsBody.marked markedBehind)).mpr
      ⟨@rfl _ (Statement.ifThen test body), closing⟩
    rw [run_statementWith, if_pos opening.front_eq, ifStatement,
      run_opening_of_reads marked opening]
    refine (exact.outcome markedBehind readsBody (blockGoesOn_of_end closing)).bind
      Nat.lt_succ_of_le id ?_
    rintro _ _ ⟨rfl, rfl, depth⟩
    rw [Rule.run_bind_of_ok (optional_eq_ok_false_iff.mpr ⟨noElse, rfl⟩),
      if_neg Bool.false_ne_true, closes]
    exact .read ⟨rfl, rfl, depth⟩
  | ifElse test thenBody elseBody =>
    rw [Statement.lexemes] at reads
    rw [Statement.depth]
    obtain ⟨behindBody, reads, closing⟩ := Cursor.reads_append_iff.mp reads
    obtain ⟨behindThen, reads, readsElse⟩ := Cursor.reads_append_iff.mp reads
    obtain ⟨behind, opening, readsThen⟩ := Cursor.reads_append_iff.mp reads
    obtain ⟨behindElse, step, readsBody⟩ := Cursor.reads_cons_iff.mp readsElse
    have markedBehind := opening.marked marked
    have markedThen := readsThen.marked markedBehind
    have markedElse := step.marked markedThen
    have closes := (run_closing_eq_ok_iff (readsBody.marked markedElse)).mpr
      ⟨@rfl _ (Statement.ifElse test thenBody elseBody), closing⟩
    rw [run_statementWith, if_pos opening.front_eq, ifStatement,
      run_opening_of_reads marked opening]
    refine (exact.outcome markedBehind readsThen (blockGoesOn_of_else readsElse)).bind
      (fun deep => by omega) id ?_
    rintro _ _ ⟨rfl, rfl, thenDepth⟩
    rw [Rule.run_bind_of_ok ((optional_eq_ok_true_iff markedThen).mpr step), if_pos rfl]
    refine (exact.outcome markedElse readsBody (blockGoesOn_of_end closing)).bind
      (fun deep => by omega) id ?_
    rintro _ _ ⟨rfl, rfl, elseDepth⟩
    rw [closes]
    exact .read ⟨rfl, rfl, Nat.max_lt.mpr ⟨thenDepth, elseDepth⟩⟩
  | whileDo test body =>
    rw [Statement.lexemes] at reads
    rw [Statement.depth]
    obtain ⟨behindBody, reads, closing⟩ := Cursor.reads_append_iff.mp reads
    obtain ⟨behind, opening, readsBody⟩ := Cursor.reads_append_iff.mp reads
    have markedBehind := opening.marked marked
    have closes := (run_closing_eq_ok_iff (readsBody.marked markedBehind)).mpr
      ⟨@rfl _ (Statement.whileDo test body), closing⟩
    rw [run_statementWith, opening.front_eq, if_neg (by decide), if_pos rfl, whileStatement,
      run_opening_of_reads marked opening]
    refine (exact.outcome markedBehind readsBody (blockGoesOn_of_end closing)).bind
      Nat.lt_succ_of_le id ?_
    rintro _ _ ⟨rfl, rfl, depth⟩
    rw [closes]
    exact .read ⟨rfl, rfl, depth⟩
  | call name =>
    rw [Statement.lexemes] at reads
    have word : (Word.isKeyword name.text || Word.isIdentifier name.text) = true := by
      rw [name.valid, Bool.or_true]
    have called := (callStatement_eq_ok_iff marked).mpr ⟨name, rfl, reads⟩
    rw [run_statementWith, reads.front_eq, if_neg (name.text_ne_of_keyword (by decide)),
      if_neg (name.text_ne_of_keyword (by decide)), if_pos word, called, Statement.depth]
    exact .read ⟨rfl, rfl, Nat.zero_le _⟩

end Statements

/-! ### Blocks, given the rule for the blocks inside -/

section Blocks

variable {limit levels : Nat} {nested : Rule Block} {body : Block}

/-- What is read as a block is spelled by it, within the limit, and ends where blocks end. -/
theorem blockWith_sound (exact : ReadsBlocks limit levels nested) (marked : first.Marked)
    (read : (blockWith nested).run first = .ok (body, last)) :
    first.Reads (Block.lexemes body) last ∧ Block.depth body ≤ levels ∧
      blockGoesOn last = false := by
  induction body generalizing first with
  | nil =>
    obtain ⟨ends, rfl⟩ := blockWith_eq_ok_nil_iff.mp read
    rw [Block.lexemes, Block.depth]
    exact ⟨.refl _, Nat.zero_le _, ends⟩
  | cons s more ih =>
    obtain ⟨-, rest, atFirst, behind⟩ := blockWith_eq_ok_cons_iff.mp read
    obtain ⟨readsFirst, depth⟩ := statementWith_sound exact marked atFirst
    obtain ⟨readsMore, moreDepth, ends⟩ := ih (readsFirst.marked marked) behind
    rw [Block.lexemes, Block.depth]
    exact ⟨readsFirst.trans readsMore, Nat.max_le.mpr ⟨depth, moreDepth⟩, ends⟩

/-- **A block is read from its lexemes** where a block may end behind them, unless it is nested too
deep. -/
theorem blockWith_outcome (exact : ReadsBlocks limit levels nested) (marked : first.Marked)
    (reads : first.Reads (Block.lexemes body) last) (ends : blockGoesOn last = false) :
    Outcome limit (fun found rest => found = body ∧ rest = last ∧ Block.depth body ≤ levels)
      (levels < Block.depth body) False ((blockWith nested).run first) := by
  induction body generalizing first with
  | nil =>
    rw [Block.lexemes] at reads
    rw [Cursor.reads_nil_iff.mp reads] at ends
    rw [blockWith_eq_ok_nil_iff.mpr ⟨ends, rfl⟩]
    exact .read ⟨rfl, (Cursor.reads_nil_iff.mp reads).symm, Nat.zero_le _⟩
  | cons s more ih =>
    rw [Block.lexemes] at reads
    rw [Block.depth]
    obtain ⟨rest, readsFirst, readsMore⟩ := Cursor.reads_append_iff.mp reads
    rw [blockWith, Rule.run_collect_of_goesOn _ _ _ (blockGoesOn_of_statement readsFirst)]
    refine (statementWith_outcome exact marked readsFirst).bind (fun deep => by omega) id ?_
    rintro _ _ ⟨rfl, rfl, depth⟩
    refine (ih (readsFirst.marked marked) readsMore).bind (fun deep => by omega) id ?_
    rintro _ _ ⟨rfl, rfl, moreDepth⟩
    exact .read ⟨rfl, rfl, Nat.max_le.mpr ⟨depth, moreDepth⟩⟩

/-- One level more is read exactly if the levels inside are. -/
theorem readsBlocks_blockWith (exact : ReadsBlocks limit levels nested) :
    ReadsBlocks limit (levels + 1) (blockWith nested) where
  sound marked read := by
    obtain ⟨reads, depth, ends⟩ := blockWith_sound exact marked read
    exact ⟨reads, Nat.lt_succ_iff.mpr depth, ends⟩
  outcome marked reads ends := by
    refine (blockWith_outcome exact marked reads ends).imp ?_ Nat.succ_le_of_lt id
    rintro _ _ ⟨same, there, depth⟩
    exact ⟨same, there, Nat.lt_succ_of_le depth⟩

end Blocks

/-! ### All levels -/

/-- **Blocks inside an IF or WHILE are read exactly**, however many levels are left. -/
theorem readsBlocks_inner (limit levels : Nat) : ReadsBlocks limit levels (inner limit levels) := by
  induction levels with
  | zero =>
    refine ⟨fun _ read => ?_, fun _ _ _ => ?_⟩
    · cases read
    · exact .tooDeep rfl (Nat.zero_le _)
  | succ levels ih => exact readsBlocks_blockWith ih

section Limit

variable {limit : Nat} {body : Block} {s : Statement} (marked : first.Marked)
include marked

theorem block_outcome (reads : first.Reads (Block.lexemes body) last)
    (ends : blockGoesOn last = false) :
    Outcome limit (fun found rest => found = body ∧ rest = last ∧ Block.depth body ≤ limit)
      (limit < Block.depth body) False ((block limit).run first) :=
  blockWith_outcome (readsBlocks_inner limit limit) marked reads ends

/-- A block is read exactly. -/
theorem block_eq_ok_iff :
    (block limit).run first = .ok (body, last) ↔
      first.Reads (Block.lexemes body) last ∧ Block.depth body ≤ limit ∧
        blockGoesOn last = false := by
  constructor
  · exact blockWith_sound (readsBlocks_inner limit limit) marked
  · rintro ⟨reads, within, ends⟩
    obtain ⟨_, _, run, rfl, rfl, -⟩ := (block_outcome marked reads ends).exists_run_eq_ok
      (Nat.not_lt_of_le within) id
    exact run

theorem statement_outcome (reads : first.Reads s.lexemes last) :
    Outcome limit (fun found rest => found = s ∧ rest = last ∧ s.depth ≤ limit)
      (limit < s.depth) False ((statement limit).run first) :=
  statementWith_outcome (readsBlocks_inner limit limit) marked reads

/-- A statement is read exactly. -/
theorem statement_eq_ok_iff :
    (statement limit).run first = .ok (s, last) ↔ first.Reads s.lexemes last ∧ s.depth ≤ limit := by
  constructor
  · exact statementWith_sound (readsBlocks_inner limit limit) marked
  · rintro ⟨reads, within⟩
    obtain ⟨_, _, run, rfl, rfl, -⟩ := (statement_outcome marked reads).exists_run_eq_ok
      (Nat.not_lt_of_le within) id
    exact run

end Limit

end Grammar

/-! ### A spelling belongs to one block -/

/-- **Blocks that are spelled alike up to an END are the same block.** -/
theorem Block.lexemes_append_inj {body body' : Block} {more more' : List String}
    (same : Block.lexemes body ++ "END" :: more = Block.lexemes body' ++ "END" :: more') :
    body = body' ∧ more = more' := by
  obtain ⟨first, marked, -, ahead⟩ := Cursor.exists_marked 0 (Block.lexemes body ++ "END" :: more)
  obtain ⟨last, reads, behind⟩ := Cursor.exists_reads ahead
  obtain ⟨last', reads', behind'⟩ := Cursor.exists_reads (ahead.trans same)
  obtain ⟨_, ending, -⟩ := @Cursor.exists_reads _ ["END"] _ behind
  obtain ⟨_, ending', -⟩ := @Cursor.exists_reads _ ["END"] _ behind'
  have read := (Grammar.block_eq_ok_iff marked).mpr
    ⟨reads, Nat.le_max_left _ (Block.depth body'), Grammar.blockGoesOn_of_end ending⟩
  have read' := (Grammar.block_eq_ok_iff marked).mpr
    ⟨reads', Nat.le_max_right (Block.depth body) _, Grammar.blockGoesOn_of_end ending'⟩
  cases read.symm.trans read'
  exact ⟨rfl, List.cons.inj (behind.symm.trans behind') |>.2⟩

end BlockLanguage
