/-
**What is read, in lexemes.**

One cursor is read from another if it stands behind tokens with given lexemes. Where the mark of the
end has its own lexeme, which is no word, each rule for a single token succeeds exactly by reading
the one lexeme that it is for.

* `reads_append_iff`, `reads_singleton_iff`: readings, piece by piece and token by token.
* `keyword_eq_ok_iff`, `identifier_eq_ok_iff`, `condition_eq_ok_iff`, `closingName_eq_ok_iff`: when
  the rules for single tokens succeed.
-/

import BlockLanguage.Grammar.Lexical

namespace BlockLanguage

namespace Cursor

/-- The lexemes ahead, up to the mark of the end. -/
def lexemes (cursor : Cursor) : List String := cursor.live.map (·.lexeme)

/-- The mark of the end has its own lexeme, which is no word. -/
def Marked (cursor : Cursor) : Prop := cursor.sentinel.lexeme = endOfInputLexeme

/-! ### Passing tokens -/

namespace Passes

variable {first second second' third : Cursor} {passed passed' : List Token}

/-- Behind the same tokens there is only one cursor. -/
theorem unique (passes : first.Passes passed second) (passes' : first.Passes passed second') :
    second' = second := by
  have live : second'.live = second.live :=
    (List.append_cancel_left (passes.live.symm.trans passes'.live)).symm
  have position := passes'.position.trans passes.position.symm
  have sentinel := passes'.sentinel.trans passes.sentinel.symm
  have beyond := passes'.beyond.trans passes.beyond.symm
  cases second
  cases second'
  simp only at live position sentinel beyond
  subst live position sentinel beyond
  rfl

/-- Whatever the tokens ahead begin with can be passed. -/
theorem exists_of_live {more : List Token} (ahead : first.live = passed ++ more) :
    ∃ second, first.Passes passed second ∧ second.live = more := by
  have live_open : ∀ token ∈ more, token.isEndOfInput = false := by
    intro token member
    refine first.live_open token ?_
    rw [ahead]
    exact List.mem_append_right _ member
  exact ⟨⟨first.position + passed.length, more, first.sentinel, first.beyond, live_open,
    first.sentinel_closes⟩, ⟨ahead, rfl, rfl, rfl⟩, rfl⟩

/-- Between two runs of tokens there is a cursor. -/
theorem split (passes : first.Passes (passed ++ passed') third) :
    ∃ second, first.Passes passed second ∧ second.Passes passed' third := by
  have ahead : first.live = passed ++ (passed' ++ third.live) := by
    rw [passes.live, List.append_assoc]
  obtain ⟨second, before, live⟩ := exists_of_live ahead
  refine ⟨second, before, live, ?_, ?_, ?_⟩
  · rw [passes.position, before.position, List.length_append, Nat.add_assoc]
  · rw [passes.sentinel, before.sentinel]
  · rw [passes.beyond, before.beyond]

end Passes

/-! ### Reading lexemes -/

/-- The second cursor is the first one behind tokens with the given lexemes. -/
def Reads (first : Cursor) (lexemes : List String) (second : Cursor) : Prop :=
  ∃ passed : List Token, first.Passes passed second ∧ passed.map (·.lexeme) = lexemes

section Reads

variable {first second second' third : Cursor} {lexeme : String} {lexemes lexemes' : List String}

theorem Reads.refl (cursor : Cursor) : cursor.Reads [] cursor := ⟨[], .refl cursor, rfl⟩

theorem Reads.trans (reads : first.Reads lexemes second) (reads' : second.Reads lexemes' third) :
    first.Reads (lexemes ++ lexemes') third := by
  obtain ⟨passed, passes, rfl⟩ := reads
  obtain ⟨passed', passes', rfl⟩ := reads'
  exact ⟨passed ++ passed', passes.trans passes', List.map_append⟩

/-- What is read in one run is read in two, whatever the place between them. -/
theorem reads_append_iff :
    first.Reads (lexemes ++ lexemes') third ↔
      ∃ second, first.Reads lexemes second ∧ second.Reads lexemes' third := by
  constructor
  · rintro ⟨passed, passes, split⟩
    obtain ⟨front, back, rfl, rfl, rfl⟩ := List.map_eq_append_iff.mp split
    obtain ⟨second, before, behind⟩ := passes.split
    exact ⟨second, ⟨front, before, rfl⟩, ⟨back, behind, rfl⟩⟩
  · rintro ⟨second, before, behind⟩
    exact before.trans behind

theorem reads_nil_iff : first.Reads [] second ↔ second = first := by
  constructor
  · rintro ⟨passed, passes, none⟩
    rw [List.map_eq_nil_iff.mp none] at passes
    exact (Passes.refl first).unique passes
  · rintro rfl
    exact .refl _

/-- The cursor behind one token is the advanced cursor. -/
theorem reads_singleton_iff :
    first.Reads [lexeme] second ↔
      first.atEnd = false ∧ first.front.lexeme = lexeme ∧ second = first.advance := by
  have step := passes_advance first
  obtain ⟨position, live, sentinel, beyond, live_open, sentinel_closes⟩ := first
  constructor
  · rintro ⟨passed, passes, same⟩
    obtain ⟨token, rfl, rfl⟩ := List.map_eq_singleton_iff.mp same
    cases passes.live
    exact ⟨rfl, rfl, step.unique passes⟩
  · rintro ⟨ahead, rfl, rfl⟩
    cases live with
    | nil => cases ahead
    | cons token more => exact ⟨[token], step, rfl⟩

theorem reads_cons_iff :
    first.Reads (lexeme :: lexemes) third ↔
      ∃ second, first.Reads [lexeme] second ∧ second.Reads lexemes third :=
  @reads_append_iff first third [lexeme] lexemes

/-- Where something is read, its first lexeme is in front. -/
theorem Reads.front_eq (reads : first.Reads (lexeme :: lexemes) third) :
    first.front.lexeme = lexeme := by
  obtain ⟨_, step, -⟩ := reads_cons_iff.mp reads
  exact (reads_singleton_iff.mp step).2.1

theorem Reads.atEnd_eq (reads : first.Reads (lexeme :: lexemes) third) : first.atEnd = false := by
  obtain ⟨_, step, -⟩ := reads_cons_iff.mp reads
  exact (reads_singleton_iff.mp step).1

theorem Reads.lexemes_eq (reads : first.Reads lexemes second) :
    first.lexemes = lexemes ++ second.lexemes := by
  obtain ⟨passed, passes, rfl⟩ := reads
  rw [Cursor.lexemes, passes.live, List.map_append]
  rfl

theorem Reads.position_eq (reads : first.Reads lexemes second) :
    second.position = first.position + lexemes.length := by
  obtain ⟨passed, passes, rfl⟩ := reads
  rw [passes.position, List.length_map]

theorem Reads.marked (reads : first.Reads lexemes second) (marked : first.Marked) :
    second.Marked := by
  obtain ⟨passed, passes, -⟩ := reads
  rw [Marked, passes.sentinel]
  exact marked

/-- Whatever the lexemes ahead begin with can be read. -/
theorem exists_reads {rest : List String} (ahead : first.lexemes = lexemes ++ rest) :
    ∃ second, first.Reads lexemes second ∧ second.lexemes = rest := by
  obtain ⟨passed, more, live, rfl, rfl⟩ := List.map_eq_append_iff.mp ahead
  obtain ⟨second, passes, rfl⟩ := Passes.exists_of_live live
  exact ⟨second, ⟨passed, passes, rfl⟩, rfl⟩

end Reads

theorem atEnd_iff_lexemes (cursor : Cursor) : cursor.atEnd = true ↔ cursor.lexemes = [] := by
  rw [atEnd, List.isEmpty_iff, lexemes, List.map_eq_nil_iff]

/-- Before any lexemes, at any position, there is a marked cursor. -/
theorem exists_marked (position : Nat) (lexemes : List String) :
    ∃ cursor : Cursor, cursor.Marked ∧ cursor.position = position ∧ cursor.lexemes = lexemes := by
  have live_open : ∀ token ∈ lexemes.map fun lexeme => Token.mk .identifier lexeme .nowhere,
      token.isEndOfInput = false := by
    intro token member
    obtain ⟨lexeme, -, rfl⟩ := List.mem_map.mp member
    rfl
  refine ⟨⟨position, _, .endOfInput .nowhere, [], live_open, Token.isEndOfInput_endOfInput _⟩,
    rfl, rfl, ?_⟩
  rw [Cursor.lexemes, List.map_map]
  exact List.map_id lexemes

/-- At the end, a marked cursor has the lexeme of the mark in front. -/
theorem Marked.front_lexeme {cursor : Cursor} (marked : cursor.Marked)
    (ended : cursor.atEnd = true) : cursor.front.lexeme = endOfInputLexeme := by
  rw [front, List.isEmpty_iff.mp ended]
  exact marked

/-- A lexeme in front, other than that of the mark, is read by one step. -/
theorem Marked.reads_front {cursor : Cursor} (marked : cursor.Marked)
    (different : cursor.front.lexeme ≠ endOfInputLexeme) :
    cursor.Reads [cursor.front.lexeme] cursor.advance := by
  refine reads_singleton_iff.mpr ⟨?_, rfl, rfl⟩
  cases ended : cursor.atEnd with
  | false => rfl
  | true => exact absurd (marked.front_lexeme ended) different

end Cursor

/-! ### Words are not the mark -/

/-- The lexeme of the mark is no identifier. -/
theorem Word.isIdentifier_endOfInputLexeme : isIdentifier endOfInputLexeme = false := by
  decide +kernel

theorem Word.keyword_ne_endOfInputLexeme {lexeme : String} (listed : lexeme ∈ keywords) :
    lexeme ≠ endOfInputLexeme := by
  revert lexeme
  decide

theorem Identifier.text_ne_endOfInputLexeme (name : Identifier) : name.text ≠ endOfInputLexeme := by
  intro same
  have valid := name.valid
  rw [same, Word.isIdentifier_endOfInputLexeme] at valid
  cases valid

namespace Grammar

variable {cursor rest : Cursor}

/-! ### When the rules for single tokens succeed -/

theorem optional_eq_ok_true_iff {lexeme : String} (marked : cursor.Marked)
    (listed : lexeme ∈ Word.keywords := by decide) :
    (optional lexeme).run cursor = .ok (true, rest) ↔ cursor.Reads [lexeme] rest := by
  rw [run_optional]
  constructor
  · intro read
    split at read
    · next here =>
      cases read
      rw [← stands_iff.mp here]
      refine marked.reads_front ?_
      rw [stands_iff.mp here]
      exact Word.keyword_ne_endOfInputLexeme listed
    · cases read
  · intro reads
    obtain ⟨-, front, rfl⟩ := Cursor.reads_singleton_iff.mp reads
    rw [if_pos (stands_iff.mpr front)]

theorem optional_eq_ok_false_iff {lexeme : String} :
    (optional lexeme).run cursor = .ok (false, rest) ↔
      stands lexeme cursor = false ∧ rest = cursor := by
  rw [run_optional]
  cases stands lexeme cursor <;> simp [eq_comm]

theorem keyword_eq_ok_iff {lexeme : String} (marked : cursor.Marked)
    (listed : lexeme ∈ Word.keywords := by decide) :
    (keyword lexeme).run cursor = .ok ((), rest) ↔ cursor.Reads [lexeme] rest := by
  rw [← optional_eq_ok_true_iff marked listed, run_keyword, run_optional]
  cases stands lexeme cursor <;> simp

theorem identifier_eq_ok_iff {name : Identifier} (marked : cursor.Marked) :
    identifier.run cursor = .ok (name, rest) ↔ cursor.Reads [name.text] rest := by
  rw [run_identifier]
  constructor
  · intro read
    split at read
    · next found named =>
      cases read
      have front := Identifier.ofText?_eq_some_iff.mp named
      rw [front]
      refine marked.reads_front ?_
      rw [← front]
      exact name.text_ne_endOfInputLexeme
    · cases read
  · intro reads
    obtain ⟨-, front, rfl⟩ := Cursor.reads_singleton_iff.mp reads
    rw [front, Identifier.ofText?_text]

theorem condition_eq_ok_iff {test : Condition} :
    condition.run cursor = .ok (test, rest) ↔ cursor.Reads [test.text] rest := by
  rw [run_condition]
  constructor
  · intro read
    split at read
    · cases read
    · next ahead =>
      split at read
      · next found named =>
        cases read
        have front := Condition.ofText?_eq_some_iff.mp named
        exact Cursor.reads_singleton_iff.mpr ⟨eq_false_of_ne_true ahead, front.symm, rfl⟩
      · cases read
  · intro reads
    obtain ⟨ahead, front, rfl⟩ := Cursor.reads_singleton_iff.mp reads
    rw [ahead, front, Condition.ofText?_eq_some_iff.mpr rfl]
    rfl

theorem closingName_eq_ok_iff {name : Identifier} (marked : cursor.Marked) :
    (closingName name.text).run cursor = .ok ((), rest) ↔ cursor.Reads [name.text] rest := by
  rw [run_closingName]
  constructor
  · intro read
    split at read
    · next same =>
      cases read
      rw [← same]
      refine marked.reads_front ?_
      rw [same]
      exact name.text_ne_endOfInputLexeme
    · split at read
      · cases read
      · cases read
  · intro reads
    obtain ⟨-, front, rfl⟩ := Cursor.reads_singleton_iff.mp reads
    rw [if_pos front]

theorem endOfInput_eq_ok_iff :
    endOfInput.run cursor = .ok ((), rest) ↔ cursor.atEnd = true ∧ rest = cursor := by
  rw [run_endOfInput]
  cases cursor.atEnd <;> simp [eq_comm]

end Grammar

end BlockLanguage
