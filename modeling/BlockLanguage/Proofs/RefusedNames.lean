/-
**When definitions are refused for their names.**

A name that is built in is refused as soon as it is read behind INSTRUCTION. A name that is taken is
refused only when its definition has been read up to the closing name. Before that come the header
of the program and complete definitions of other names; what comes behind has no influence.

* `definition_refused_iff`, `iterateFrom_definition_refused_iff`, `program_refused_iff`: where the
  rules refuse a name, and with which error.
* `RepeatsName`, `NamesBuiltIn`: what the lexemes of a program begin with where a name is refused.
* `parse_refuses_names`: which token lists are refused for a name, and where.
-/

import BlockLanguage.Proofs.Consumption
import BlockLanguage.Proofs.Faults
import BlockLanguage.Proofs.Scanning

namespace BlockLanguage

/-! ### Refusals that are for other reasons -/

/-- The ways to be refused that are not for the name of a definition. -/
def otherFaults : Faults where
  Holds _ error := error.cause.refusesName = false
  before _ holds := holds

/-- The lexemes of a program from its first one up to its definitions, these included. -/
def Program.opening (name : Identifier) (definitions : Context.Entries) : List String :=
  ["PROGRAM", name.text, "IS"] ++ definitions.flatMap definitionLexemes

namespace Context

/-- Definitions that can be made one after another in a context, and the context that they lead to:
their names are not built in, the context does not define them, no name is repeated, and all blocks
stay within a limit. -/
structure Takes (limit : Nat) (before : Context) (definitions : Entries) (after : Context) :
    Prop where
  definable : Definable definitions
  fresh : Fresh before definitions
  within : Within limit definitions
  meaning : Extends before definitions after

variable {limit : Nat} {before after : Context} {definitions : Entries} {name : Identifier}
  {body : Block}

theorem takes_nil_iff : Takes limit before [] after ↔ after = before := by
  constructor
  · exact fun takes => extends_nil_iff.mp takes.meaning
  · exact fun same => ⟨List.forall_mem_nil _, ⟨.nil, List.forall_mem_nil _⟩, List.forall_mem_nil _,
      extends_nil_iff.mpr same⟩

theorem takes_cons_iff (free : Word.isPrimitive name.text = false) :
    Takes limit before ((name, body) :: definitions) after ↔
      before.find? name.text = none ∧ Block.depth body ≤ limit ∧
        Takes limit (before.put name body free) definitions after := by
  constructor
  · rintro ⟨definable, fresh, within, meaning⟩
    obtain ⟨unused, freshMore⟩ := (fresh_cons_iff free).mp fresh
    obtain ⟨here, withinMore⟩ := List.forall_mem_cons.mp within
    exact ⟨unused, here, (List.forall_mem_cons.mp definable).2, freshMore, withinMore,
      (extends_cons_iff free unused).mp meaning⟩
  · rintro ⟨unused, here, definable, fresh, within, meaning⟩
    exact ⟨List.forall_mem_cons.mpr ⟨free, definable⟩, (fresh_cons_iff free).mpr ⟨unused, fresh⟩,
      List.forall_mem_cons.mpr ⟨here, within⟩, (extends_cons_iff free unused).mpr meaning⟩

end Context

namespace Grammar

open Rule
open Program (definitionLexemes)
open Context (Entries Takes)

variable {limit : Nat} {first : Cursor} {stop : Stop}

theorem failsBy_other {α : Type} {levels : Nat} {rule : Rule α}
    (fails : rule.FailsBy (blockFaults limit levels)) : rule.FailsBy otherFaults :=
  fun first stop refused => (fails first stop refused).refusesName_eq_false

theorem failsBy_other_closingName (name : String) : (closingName name).FailsBy otherFaults := by
  intro first stop refused
  rw [run_closingName] at refused
  split at refused
  · cases refused
  · split at refused
    · cases refused
      rfl
    · cases refused
      exact Cursor.refusesName_unexpected _ _

/-- Behind a rule that refuses no name, a name is refused by the rule that comes next. -/
theorem exists_run_of_refused {α β : Type} {rule : Rule α} {next : α → Rule β}
    (fails : rule.FailsBy otherFaults) (refused : (rule >>= next).run first = .error stop)
    (name : stop.error.cause.refusesName = true) :
    ∃ value rest, rule.run first = .ok (value, rest) ∧ (next value).run rest = .error stop := by
  rcases run_bind_eq_error_iff.mp refused with here | behind
  · exact absurd (name.symm.trans (fails first stop here)) (by decide)
  · exact behind

/-! ### One definition -/

/-- How a definition is refused for its name, behind a context: the name is taken, which is reported
behind the closing name, or it is built in, which is reported behind the name itself. Both errors
lie in the name. -/
inductive NameRefused (limit : Nat) (before : Context) (first : Cursor) : Stop → Prop
  | taken {name : Identifier} {body : Block} {last : Cursor}
    (reads : first.Reads (definitionLexemes (name, body)) last)
    (within : Block.depth body ≤ limit) (free : Word.isPrimitive name.text = false)
    (used : before.find? name.text ≠ none) :
    NameRefused limit before first
      ⟨first.advance.error (.duplicateInstruction name.text) none, last⟩
  | builtIn {name : Identifier} {last : Cursor}
    (reads : first.Reads ["INSTRUCTION", name.text] last)
    (reserved : Word.isPrimitive name.text = true) :
    NameRefused limit before first ⟨first.advance.error (.reservedName name.text) none, last⟩

/-- **Where a definition is refused for its name.** -/
theorem definition_refused_iff {before : Context} (marked : first.Marked) :
    (definition limit before).run first = .error stop ∧ stop.error.cause.refusesName = true ↔
      NameRefused limit before first stop := by
  have keywords : ∀ lexeme, (keyword lexeme).FailsBy otherFaults :=
    fun lexeme => @failsBy_other limit _ limit _ (failsBy_keyword lexeme)
  constructor
  · rintro ⟨refused, name⟩
    obtain ⟨_, named, atKeyword, refused⟩ := exists_run_of_refused (keywords _) refused name
    rw [run_bind_of_ok (run_here named)] at refused
    obtain ⟨found, behindName, atName, refused⟩ :=
      exists_run_of_refused (@failsBy_other limit _ limit _ failsBy_identifier) refused name
    have readsKeyword := (keyword_eq_ok_iff marked).mp atKeyword
    have markedNamed := readsKeyword.marked marked
    have readsName := (identifier_eq_ok_iff markedNamed).mp atName
    have markedName := readsName.marked markedNamed
    have same : named = first.advance := (Cursor.reads_singleton_iff.mp readsKeyword).2.2
    split at refused
    · next free =>
      obtain ⟨_, behind, atIs, refused⟩ := exists_run_of_refused (keywords _) refused name
      obtain ⟨body, behindBody, atBody, refused⟩ :=
        exists_run_of_refused (failsBy_other (failsBy_block limit)) refused name
      obtain ⟨_, behindEnd, atEnd, refused⟩ := exists_run_of_refused (keywords _) refused name
      obtain ⟨_, last, atClosing, refused⟩ :=
        exists_run_of_refused (failsBy_other_closingName _) refused name
      have readsIs := (keyword_eq_ok_iff markedName).mp atIs
      have markedBehind := readsIs.marked markedName
      obtain ⟨readsBody, within, -⟩ := (block_eq_ok_iff markedBehind).mp atBody
      have markedBody := readsBody.marked markedBehind
      have readsEnd := (keyword_eq_ok_iff markedBody).mp atEnd
      have readsClosing := (closingName_eq_ok_iff (readsEnd.marked markedBody)).mp atClosing
      have opening := readsKeyword.trans (readsName.trans readsIs)
      have reads := (opening.trans readsBody).trans (readsEnd.trans readsClosing)
      split at refused
      · next used =>
        cases refused
        rw [same]
        exact .taken reads within free (Option.isSome_iff_ne_none.mp used)
      · cases refused
    · next reserved =>
      cases refused
      rw [same]
      exact .builtIn (readsKeyword.trans readsName) (eq_true_of_ne_false reserved)
  · intro refused
    cases refused with
    | @taken name body last reads within free used =>
      refine ⟨?_, rfl⟩
      obtain ⟨behindBody, reads, closing⟩ := Cursor.reads_append_iff.mp reads
      obtain ⟨behind, header, readsBody⟩ := Cursor.reads_append_iff.mp reads
      obtain ⟨behindEnd, atEnd, atClosing⟩ := Cursor.reads_cons_iff.mp closing
      obtain ⟨named, atKeyword, run⟩ :=
        @run_definition_of_header limit _ before _ _ marked free header
      have markedBehind := header.marked marked
      have markedBody := readsBody.marked markedBehind
      have readBody := (block_eq_ok_iff markedBehind).mpr
        ⟨readsBody, within, blockGoesOn_of_end closing⟩
      rw [run, run_bind_of_ok readBody, run_bind_of_ok ((keyword_eq_ok_iff markedBody).mpr atEnd),
        run_bind_of_ok ((closingName_eq_ok_iff (atEnd.marked markedBody)).mpr atClosing),
        if_pos (Option.isSome_iff_ne_none.mpr used),
        (Cursor.reads_singleton_iff.mp atKeyword).2.2]
      rfl
    | @builtIn name last reads reserved =>
      refine ⟨?_, rfl⟩
      obtain ⟨named, atKeyword, atName⟩ := Cursor.reads_cons_iff.mp reads
      rw [definition, run_bind_of_ok ((keyword_eq_ok_iff marked).mpr atKeyword),
        run_bind_of_ok (run_here named),
        run_bind_of_ok ((identifier_eq_ok_iff (atKeyword.marked marked)).mpr atName),
        dif_neg (by simp [reserved]), (Cursor.reads_singleton_iff.mp atKeyword).2.2]
      rfl

/-- A definition that can be made is taken. -/
theorem definition_of_reads {before : Context} {last : Cursor} {name : Identifier} {body : Block}
    (marked : first.Marked) (free : Word.isPrimitive name.text = false)
    (unused : before.find? name.text = none) (within : Block.depth body ≤ limit)
    (reads : first.Reads (definitionLexemes (name, body)) last) :
    (definition limit before).run first = .ok (before.put name body free, last) := by
  obtain ⟨_, _, run, rfl, rfl, -⟩ :=
    (outcome_definition before marked free reads).exists_run_eq_ok (Nat.not_lt_of_le within)
      (not_not_intro unused)
  exact run

theorem NameRefused.stands {before : Context} (refused : NameRefused limit before first stop) :
    stands "INSTRUCTION" first = true := by
  cases refused with
  | taken reads => exact stands_iff.mpr reads.front_eq
  | builtIn reads => exact stands_iff.mpr reads.front_eq

/-! ### All definitions -/

/-- Among definitions a name is refused behind some that can be made. -/
theorem exists_definitions_of_refused {first : Cursor} {before : Context} (marked : first.Marked)
    (refused : iterateFrom (stands "INSTRUCTION") (definition limit) (progresses_definition limit)
      before first = .error stop) (name : stop.error.cause.refusesName = true) :
    ∃ definitions after here, first.Reads (definitions.flatMap definitionLexemes) here ∧
      Takes limit before definitions after ∧ NameRefused limit after here stop := by
  obtain ⟨again, here | ⟨next, rest, read, behind⟩⟩ := (iterateFrom_eq_error_iff _ _ _).mp refused
  · exact ⟨[], before, first, .refl first, Context.takes_nil_iff.mpr rfl,
      (definition_refused_iff marked).mp ⟨here, name⟩⟩
  · have shorter := progresses_definition limit before _ _ _ again read
    obtain ⟨found, body, free, reads, within, unused, rfl⟩ := definition_sound marked read
    obtain ⟨definitions, after, here, readsMore, takes, nameRefused⟩ :=
      exists_definitions_of_refused (reads.marked marked) behind name
    refine ⟨(found, body) :: definitions, after, here, ?_,
      (Context.takes_cons_iff free).mpr ⟨unused, within, takes⟩, nameRefused⟩
    rw [List.flatMap_cons]
    exact reads.trans readsMore
termination_by first.live.length

/-- **Where definitions are refused for a name**: in one that comes behind others which can be
made. -/
theorem iterateFrom_definition_refused_iff {before : Context} (marked : first.Marked) :
    iterateFrom (stands "INSTRUCTION") (definition limit) (progresses_definition limit) before first
        = .error stop ∧ stop.error.cause.refusesName = true ↔
      ∃ definitions after here, first.Reads (definitions.flatMap definitionLexemes) here ∧
        Takes limit before definitions after ∧ NameRefused limit after here stop := by
  constructor
  · rintro ⟨refused, name⟩
    exact exists_definitions_of_refused marked refused name
  · rintro ⟨definitions, after, here, reads, takes, refused⟩
    induction definitions generalizing before first with
    | nil =>
      rw [Cursor.reads_nil_iff.mp reads, Context.takes_nil_iff.mp takes] at refused
      obtain ⟨run, name⟩ := (definition_refused_iff marked).mpr refused
      exact ⟨iterateFrom_error _ _ _ refused.stands run, name⟩
    | cons entry more ih =>
      obtain ⟨name, body⟩ := entry
      have free : Word.isPrimitive name.text = false := takes.definable _ List.mem_cons_self
      obtain ⟨unused, within, takesMore⟩ := (Context.takes_cons_iff free).mp takes
      rw [List.flatMap_cons] at reads
      obtain ⟨rest, readsFirst, readsMore⟩ := Cursor.reads_append_iff.mp reads
      have again : stands "INSTRUCTION" first = true := stands_iff.mpr readsFirst.front_eq
      rw [iterateFrom_more _ _ _ again (definition_of_reads marked free unused within readsFirst)]
      exact ih (readsFirst.marked marked) readsMore takesMore

/-! ### Programs -/

/-- **Where programs are refused for a name**: behind their header and definitions which can be
made. -/
theorem program_refused_iff (marked : first.Marked) :
    (program limit).run first = .error stop ∧ stop.error.cause.refusesName = true ↔
      ∃ (name : Identifier) (definitions : Entries) (context : Context) (here : Cursor),
        first.Reads (Program.opening name definitions) here ∧
          Takes limit .empty definitions context ∧ NameRefused limit context here stop := by
  have keywords : ∀ lexeme, (keyword lexeme).FailsBy otherFaults :=
    fun lexeme => @failsBy_other limit _ limit _ (failsBy_keyword lexeme)
  have names := @failsBy_other limit _ limit _ failsBy_identifier
  constructor
  · rintro ⟨refused, about⟩
    obtain ⟨_, named, atKeyword, refused⟩ := exists_run_of_refused (keywords _) refused about
    obtain ⟨name, behindName, atName, refused⟩ := exists_run_of_refused names refused about
    obtain ⟨_, behind, atIs, refused⟩ := exists_run_of_refused (keywords _) refused about
    have readsKeyword := (keyword_eq_ok_iff marked).mp atKeyword
    have markedNamed := readsKeyword.marked marked
    have readsName := (identifier_eq_ok_iff markedNamed).mp atName
    have markedName := readsName.marked markedNamed
    have readsIs := (keyword_eq_ok_iff markedName).mp atIs
    have header := readsKeyword.trans (readsName.trans readsIs)
    rw [run_bind_of_ok (run_here behind)] at refused
    split at refused
    · -- Behind the definitions only rules come that refuse no name.
      rcases run_bind_eq_error_iff.mp refused with here | ⟨context, atBegin, -, refused⟩
      · obtain ⟨definitions, context, here, reads, takes, nameRefused⟩ :=
          exists_definitions_of_refused (header.marked marked) here about
        exact ⟨name, definitions, context, here, header.trans reads, takes, nameRefused⟩
      · obtain ⟨_, _, -, refused⟩ := exists_run_of_refused (keywords _) refused about
        obtain ⟨_, _, -, refused⟩ :=
          exists_run_of_refused (failsBy_other (failsBy_block limit)) refused about
        obtain ⟨_, _, -, refused⟩ := exists_run_of_refused (keywords _) refused about
        obtain ⟨_, _, -, refused⟩ :=
          exists_run_of_refused (failsBy_other_closingName _) refused about
        obtain ⟨_, _, -, refused⟩ :=
          exists_run_of_refused (@failsBy_other limit _ limit _ failsBy_endOfInput) refused about
        cases refused
    · cases refused
      rw [Cursor.refusesName_unexpected] at about
      cases about
  · rintro ⟨name, definitions, context, here, reads, takes, refused⟩
    obtain ⟨behind, header, readsDefinitions⟩ := Cursor.reads_append_iff.mp reads
    obtain ⟨named, atKeyword, header⟩ := Cursor.reads_cons_iff.mp header
    obtain ⟨behindName, atName, atIs⟩ := Cursor.reads_cons_iff.mp header
    have markedNamed := atKeyword.marked marked
    have markedName := atName.marked markedNamed
    have markedBehind := atIs.marked markedName
    obtain ⟨run, about⟩ := (iterateFrom_definition_refused_iff markedBehind).mpr
      ⟨definitions, context, here, readsDefinitions, takes, refused⟩
    have again : stands "INSTRUCTION" behind = true :=
      ((iterateFrom_eq_error_iff _ _ _).mp run).1
    refine ⟨?_, about⟩
    rw [program, run_bind_of_ok ((keyword_eq_ok_iff marked).mpr atKeyword),
      run_bind_of_ok ((identifier_eq_ok_iff markedNamed).mpr atName),
      run_bind_of_ok ((keyword_eq_ok_iff markedName).mpr atIs),
      run_bind_of_ok (run_here behind), if_pos (by rw [again, Bool.true_or])]
    exact run_bind_of_error run

end Grammar

/-! ### Token lists -/

namespace Context

/-- Definitions that a program can have: names that are not built in and not repeated, and blocks
within a limit. -/
structure Acceptable (limit : Nat) (definitions : Entries) : Prop where
  distinct : Distinct definitions
  definable : Definable definitions
  within : Within limit definitions

theorem exists_takes {limit : Nat} {before : Context} {definitions : Entries}
    (definable : Definable definitions) (fresh : Fresh before definitions)
    (within : Within limit definitions) : ∃ after, Takes limit before definitions after := by
  induction definitions generalizing before with
  | nil => exact ⟨before, takes_nil_iff.mpr rfl⟩
  | cons entry more ih =>
    obtain ⟨name, body⟩ := entry
    obtain ⟨free, definableMore⟩ := List.forall_mem_cons.mp definable
    obtain ⟨unused, freshMore⟩ := (fresh_cons_iff free).mp fresh
    obtain ⟨here, withinMore⟩ := List.forall_mem_cons.mp within
    obtain ⟨after, takes⟩ := ih definableMore freshMore withinMore
    exact ⟨after, (takes_cons_iff free).mpr ⟨unused, here, takes⟩⟩

theorem Takes.acceptable {limit : Nat} {definitions : Entries} {after : Context}
    (takes : Takes limit empty definitions after) : Acceptable limit definitions :=
  ⟨fresh_empty_iff.mp takes.fresh, takes.definable, takes.within⟩

/-- Behind definitions that a context has been made of, the names that it defines are theirs. -/
theorem Takes.find?_ne_none_iff {limit : Nat} {definitions : Entries} {after : Context}
    (takes : Takes limit empty definitions after) {name : Identifier} :
    after.find? name.text ≠ none ↔ ∃ entry ∈ definitions, entry.1 = name := by
  rw [Option.ne_none_iff_exists']
  constructor
  · rintro ⟨body, found⟩
    obtain ⟨entry, member, same, -⟩ := (extends_empty_iff.mp takes.meaning _ _).mp found
    exact ⟨entry, member, Identifier.ext same⟩
  · rintro ⟨entry, member, rfl⟩
    exact ⟨entry.2, (extends_empty_iff.mp takes.meaning _ _).mpr ⟨entry, member, rfl, rfl⟩⟩

end Context

namespace Program

open Context (Entries Acceptable)

/-- What the lexemes of a program begin with where a name is refused, with the cause and the index
of that name: a header and acceptable definitions, and then either a whole definition of a name that
one of them has, or INSTRUCTION and a name that is built in. -/
inductive RefusedFront (limit : Nat) : ParseError.Cause → Nat → List String → Prop
  | taken {name repeated : Identifier} {definitions : Entries} {body : Block}
    (acceptable : Acceptable limit definitions) (used : ∃ entry ∈ definitions, entry.1 = repeated)
    (within : Block.depth body ≤ limit) :
    RefusedFront limit (.duplicateInstruction repeated.text)
      ((opening name definitions).length + 1)
      (opening name definitions ++ definitionLexemes (repeated, body))
  | builtIn {name : Identifier} {definitions : Entries} {reserved : String}
    (acceptable : Acceptable limit definitions) (listed : Word.isPrimitive reserved = true) :
    RefusedFront limit (.reservedName reserved) ((opening name definitions).length + 1)
      (opening name definitions ++ ["INSTRUCTION", reserved])

end Program

/-- The names that are built in are identifiers. -/
theorem Word.isIdentifier_of_isPrimitive {text : String} (listed : isPrimitive text = true) :
    isIdentifier text = true := by
  have each : ∀ text ∈ primitives, isIdentifier text = true := by decide +kernel
  exact each text (List.contains_iff_mem.mp listed)

/-- Completed tokens begin with the tokens. -/
theorem Token.prefix_complete (tokens : List Token) : tokens <+: complete tokens := by
  unfold complete
  split
  · next none =>
    rw [List.getLast?_eq_none_iff.mp none]
    exact List.nil_prefix
  · split
    · exact List.prefix_rfl
    · exact List.prefix_append _ _

namespace Program

open Context (Entries)

variable {limit : Nat}

/-- Where a name is refused behind definitions, such lexemes have been read. -/
theorem exists_refusedFront {first here : Cursor} {stop : Stop} {name : Identifier}
    {definitions : Entries} {context : Context} (atStart : first.position = 0)
    (reads : first.Reads (opening name definitions) here)
    (takes : Context.Takes limit .empty definitions context)
    (refused : Grammar.NameRefused limit context here stop) :
    ∃ front last, first.Reads front last ∧
      RefusedFront limit stop.error.cause stop.error.position front := by
  have place : here.atEnd = false →
      here.advance.position = (opening name definitions).length + 1 := by
    intro more
    rw [Cursor.position_advance more, reads.position_eq, atStart, Nat.zero_add]
  cases refused with
  | @taken repeated body last readsMore within free used =>
    refine ⟨_, last, reads.trans readsMore, ?_⟩
    show RefusedFront limit _ here.advance.position _
    rw [place readsMore.atEnd_eq]
    exact .taken takes.acceptable (takes.find?_ne_none_iff.mp used) within
  | @builtIn repeated last readsMore reserved =>
    refine ⟨_, last, reads.trans readsMore, ?_⟩
    show RefusedFront limit _ here.advance.position _
    rw [place readsMore.atEnd_eq]
    exact .builtIn takes.acceptable reserved

/-- Where such lexemes are read, a name is refused, and the error lies in it. -/
theorem exists_nameRefused {first last : Cursor} {cause : ParseError.Cause} {position : Nat}
    {front : List String} (atStart : first.position = 0)
    (refused : RefusedFront limit cause position front) (reads : first.Reads front last) :
    ∃ name definitions context here stop, first.Reads (opening name definitions) here ∧
      Context.Takes limit .empty definitions context ∧
        Grammar.NameRefused limit context here stop ∧
          stop.error = here.advance.error cause none ∧ here.advance.position = position := by
  cases refused with
  | @taken name repeated definitions body acceptable used within =>
    obtain ⟨here, readsOpening, readsMore⟩ := Cursor.reads_append_iff.mp reads
    obtain ⟨context, takes⟩ := Context.exists_takes acceptable.definable
      (Context.fresh_empty_iff.mpr acceptable.distinct) acceptable.within
    obtain ⟨entry, member, rfl⟩ := used
    refine ⟨name, definitions, context, here, _, readsOpening, takes,
      .taken readsMore within (acceptable.definable _ member)
        (takes.find?_ne_none_iff.mpr ⟨entry, member, rfl⟩), rfl, ?_⟩
    rw [Cursor.position_advance readsMore.atEnd_eq, readsOpening.position_eq, atStart, Nat.zero_add]
  | @builtIn name definitions reserved acceptable listed =>
    obtain ⟨here, readsOpening, readsMore⟩ := Cursor.reads_append_iff.mp reads
    obtain ⟨context, takes⟩ := Context.exists_takes acceptable.definable
      (Context.fresh_empty_iff.mpr acceptable.distinct) acceptable.within
    refine ⟨name, definitions, context, here, _, readsOpening, takes,
      @Grammar.NameRefused.builtIn _ _ _ ⟨reserved, Word.isIdentifier_of_isPrimitive listed⟩ _
        readsMore listed, rfl, ?_⟩
    rw [Cursor.position_advance readsMore.atEnd_eq, readsOpening.position_eq, atStart, Nat.zero_add]

variable {options : Options} {tokens : List Token}

/-- The index is that of a lexeme. -/
theorem RefusedFront.position_lt {cause : ParseError.Cause} {position : Nat} {front : List String}
    (found : RefusedFront limit cause position front) : position < front.length := by
  cases found <;> simp [definitionLexemes]

section Plain

variable (plain : Token.Plain tokens)
include plain

/-- What is refused for a name begins as such lexemes do. -/
theorem refusedFront_of_parse {error : ParseError}
    (failed : Program.parse options tokens = .error error)
    (about : error.cause.refusesName = true) :
    ∃ front, RefusedFront options.maxNestingDepth error.cause error.position front ∧
      front <+: Token.lexemes tokens := by
  obtain ⟨stop, run, rfl⟩ := Rule.parse_eq_error_iff.mp failed
  obtain ⟨name, definitions, context, here, reads, takes, refused⟩ :=
    (Grammar.program_refused_iff (Cursor.marked_ofTokens plain)).mp ⟨run, about⟩
  obtain ⟨front, last, readsFront, found⟩ :=
    exists_refusedFront (Cursor.position_ofTokens tokens) reads takes refused
  refine ⟨front, found, ?_⟩
  rw [← Cursor.lexemes_ofTokens plain, readsFront.lexemes_eq]
  exact List.prefix_append _ _

/-- What begins as such lexemes do is refused, whatever comes behind them. -/
theorem parse_of_refusedFront {cause : ParseError.Cause} {position : Nat} {front : List String}
    (found : RefusedFront options.maxNestingDepth cause position front)
    (ahead : front <+: Token.lexemes tokens) :
    ∃ token, (Token.complete tokens)[position]? = some token ∧
      Program.parse options tokens = .error ⟨cause, position, token.span, none⟩ := by
  rw [← Cursor.lexemes_ofTokens plain] at ahead
  obtain ⟨rest, split⟩ := ahead
  obtain ⟨last, reads, -⟩ := Cursor.exists_reads split.symm
  obtain ⟨name, definitions, context, here, stop, readsOpening, takes, refused, error, rfl⟩ :=
    exists_nameRefused (Cursor.position_ofTokens tokens) found reads
  obtain ⟨run, -⟩ := (Grammar.program_refused_iff (Cursor.marked_ofTokens plain)).mpr
    ⟨name, definitions, context, here, readsOpening, takes, refused⟩
  obtain ⟨passed, passes, -⟩ := readsOpening
  have reached : (Cursor.ofTokens tokens).Reaches here.advance :=
    .trans ⟨passed, passes⟩ (.advance here)
  exact ⟨here.advance.front, Cursor.getElem?_position reached,
    Rule.parse_eq_error_iff.mpr ⟨stop, run, error⟩⟩

theorem parse_refused_iff {cause : ParseError.Cause} {position : Nat}
    (about : cause.refusesName = true) :
    (∃ error, Program.parse options tokens = .error error ∧ error.cause = cause ∧
        error.position = position) ↔
      ∃ front, RefusedFront options.maxNestingDepth cause position front ∧
        front <+: Token.lexemes tokens := by
  constructor
  · rintro ⟨_, failed, rfl, rfl⟩
    exact refusedFront_of_parse plain failed about
  · rintro ⟨front, found, ahead⟩
    obtain ⟨token, -, failed⟩ := parse_of_refusedFront plain found ahead
    exact ⟨_, failed, rfl, rfl⟩

end Plain

/-- Such lexemes are words. -/
theorem RefusedFront.areWords {cause : ParseError.Cause} {position : Nat} {front : List String}
    (found : RefusedFront limit cause position front) : Word.AreWords front := by
  have opening : ∀ (name : Identifier) (definitions : Entries),
      Word.AreWords (opening name definitions) := by
    intro name definitions
    simp (disch := decide) [Program.opening, Word.areWords_flatMap_iff,
      areWords_definitionLexemes, Word.isWord_of_keyword]
  cases found with
  | taken => exact Word.areWords_append_iff.mpr ⟨opening _ _, areWords_definitionLexemes _⟩
  | @builtIn name definitions reserved acceptable listed =>
    have word := (⟨reserved, Word.isIdentifier_of_isPrimitive listed⟩ : Identifier).isWord_text
    refine Word.areWords_append_iff.mpr ⟨opening _ _, ?_⟩
    exact Word.areWords_cons_iff.mpr ⟨Word.isWord_of_keyword (by decide),
      Word.areWords_cons_iff.mpr ⟨word, Word.areWords_nil⟩⟩

section Behind

variable {cause : ParseError.Cause} {position : Nat} {front behind : List Token}
  (found : RefusedFront limit cause position (front.map (·.lexeme)))
  (plain : Token.Plain (front ++ behind))
include found plain

/-- No mark is among tokens with such lexemes, so that the lexemes of a list begin with theirs. -/
theorem RefusedFront.prefix_lexemes :
    front.map (·.lexeme) <+: Token.lexemes (front ++ behind) := by
  have opened : ∀ token ∈ front, token.isEndOfInput = false := by
    intro token member
    rw [Token.isEndOfInput, plain.classified token (List.mem_append_left _ member),
      decide_eq_false_iff_not, TokenKind.ofLexeme_eq_endOfInput_iff]
    intro marks
    exact found.areWords.endOfInputLexeme_not_mem (marks ▸ List.mem_map_of_mem member)
  rw [Token.lexemes_append, Token.lexemes_eq_map opened]
  exact List.prefix_append _ _

end Behind

/-- The token with the name is among those that have such lexemes. -/
theorem RefusedFront.getElem?_eq {cause : ParseError.Cause} {position : Nat} {front : List Token}
    (found : RefusedFront limit cause position (front.map (·.lexeme))) (behind : List Token) :
    (Token.complete (front ++ behind))[position]? = front[position]? := by
  have inside := found.position_lt
  rw [List.length_map] at inside
  have ahead := (List.prefix_append front behind).trans (Token.prefix_complete _)
  exact (List.prefix_iff_getElem?.mp ahead position inside).trans
    (List.getElem?_eq_getElem inside).symm

/-- **When definitions are refused for their names.** A name is reported as repeated or as built in
exactly where the lexemes begin so, and the tokens behind those lexemes have no influence on the
error. -/
theorem parse_refuses_names (options : Options) :
    (∀ tokens name position, Token.Plain tokens →
      ((∃ error, Program.parse options tokens = .error error ∧
          error.cause = .duplicateInstruction name ∧ error.position = position) ↔
        ∃ front, RefusedFront options.maxNestingDepth (.duplicateInstruction name) position front ∧
          front <+: Token.lexemes tokens)) ∧
    (∀ tokens name position, Token.Plain tokens →
      ((∃ error, Program.parse options tokens = .error error ∧
          error.cause = .reservedName name ∧ error.position = position) ↔
        ∃ front, RefusedFront options.maxNestingDepth (.reservedName name) position front ∧
          front <+: Token.lexemes tokens)) ∧
    ∀ cause position front behind other,
      RefusedFront options.maxNestingDepth cause position (front.map (·.lexeme)) →
        Token.Plain (front ++ behind) → Token.Plain (front ++ other) →
          Program.parse options (front ++ behind) = Program.parse options (front ++ other) := by
  refine ⟨fun tokens name position plain => parse_refused_iff plain rfl,
    fun tokens name position plain => parse_refused_iff plain rfl, ?_⟩
  intro cause position front behind other found plain plainOther
  obtain ⟨token, there, failed⟩ := parse_of_refusedFront plain found (found.prefix_lexemes plain)
  obtain ⟨token', there', failed'⟩ :=
    parse_of_refusedFront plainOther found (found.prefix_lexemes plainOther)
  have same : token = token' := by
    rw [found.getElem?_eq] at there there'
    exact Option.some.inj (there.symm.trans there')
  rw [failed, failed', same]

/-- A second definition of a name is refused behind its closing name, whether nothing follows or an
IF that nothing closes; a name that is built in is refused before anything else of its
definition. -/
theorem parse_refuses_names_repeated :
    ∃ front more, front = Token.ofLexemes ["PROGRAM", "P", "IS", "INSTRUCTION", "a", "IS", "END",
        "a", "INSTRUCTION", "a", "IS", "move", "END", "a"] ∧ more = Token.ofLexemes ["IF"] ∧
      (∃ error, Program.parse ⟨0⟩ (front ++ []) = .error error ∧
        error.cause = .duplicateInstruction "a" ∧ error.position = 9) ∧
      Program.parse ⟨0⟩ (front ++ []) = Program.parse ⟨0⟩ (front ++ more) ∧
      ∃ error, Program.parse ⟨0⟩ (Token.ofLexemes ["PROGRAM", "P", "IS", "INSTRUCTION", "move"]) =
        .error error ∧ error.cause = .reservedName "move" ∧ error.position = 4 := by
  obtain ⟨front, isFront⟩ : ∃ front, front = Token.ofLexemes ["PROGRAM", "P", "IS", "INSTRUCTION",
    "a", "IS", "END", "a", "INSTRUCTION", "a", "IS", "move", "END", "a"] := ⟨_, rfl⟩
  obtain ⟨repeated, builtIn, same⟩ := parse_refuses_names ⟨0⟩
  have found : RefusedFront 0 (.duplicateInstruction "a") 9 (front.map (·.lexeme)) := by
    have taken := @RefusedFront.taken 0 ⟨"P", by decide +kernel⟩ ⟨"a", by decide +kernel⟩
      [(⟨"a", by decide +kernel⟩, [])] [.call ⟨"move", by decide +kernel⟩]
      ⟨by simp [Context.Distinct], by simp [Context.Definable]; decide,
        by simp [Context.Within, Block.depth]⟩
      ⟨_, List.mem_singleton_self _, rfl⟩ (by simp [Block.depth, Statement.depth])
    have spelled : front.map (·.lexeme) = ["PROGRAM", "P", "IS", "INSTRUCTION", "a", "IS", "END",
        "a", "INSTRUCTION", "a", "IS", "move", "END", "a"] := by
      rw [isFront]
      decide +kernel
    rw [spelled]
    simpa [opening, definitionLexemes, Block.lexemes, Statement.lexemes] using taken
  have plain : Token.Plain (front ++ []) := by
    rw [isFront]
    decide +kernel
  have plainMore : Token.Plain (front ++ Token.ofLexemes ["IF"]) := by
    rw [isFront]
    decide +kernel
  refine ⟨front, _, isFront, rfl, ?_, same _ _ front _ _ found plain plainMore, ?_⟩
  · refine (repeated (front ++ []) "a" 9 plain).mpr ⟨_, found, ?_⟩
    exact found.prefix_lexemes plain
  · refine (builtIn _ "move" 4 (by decide +kernel)).mpr ⟨_, @RefusedFront.builtIn 0
      ⟨"P", by decide +kernel⟩ [] "move" ⟨.nil, List.forall_mem_nil _, List.forall_mem_nil _⟩
      (by decide), ?_⟩
    decide +kernel

end Program

end BlockLanguage
