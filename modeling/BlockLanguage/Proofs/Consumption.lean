/-
**What a session takes.**

A session stands somewhere in its tokens, wherever its requests have led it. Asked for a statement
or a block, it gives the one that the tokens from there up to some index spell, within the limit,
and then stands at that index; a block besides ends only before END, before ELSE or at the mark of
the end. Tokens further on do not matter.

* `askAll_reaches`: answers lead a session forward only.
* `reads_iff_between`: what a cursor reads, as tokens of the completed list.
* `ask_exact`: statements and blocks are taken exactly.
-/

import BlockLanguage.Proofs.Exactness
import BlockLanguage.Proofs.PlainTokens
import BlockLanguage.Session

namespace BlockLanguage

/-- The lexemes of the tokens from one index up to another, the mark of the end included. -/
def Token.between (tokens : List Token) (i j : Nat) : List String :=
  (((complete tokens).take j).drop i).map (·.lexeme)

theorem Word.isWord_endOfInputLexeme : isWord endOfInputLexeme = false := by
  decide +kernel

namespace Cursor

section Between

variable {tokens : List Token} {first : Cursor} {lexemes : List String} {j : Nat}

/-- From the front of a list, a cursor is reached behind the tokens before its index. -/
theorem complete_eq_of_reaches (reached : (ofTokens tokens).Reaches first) :
    ∃ passed, Token.complete tokens = passed ++ first.remaining ∧
      first.position = passed.length := by
  obtain ⟨passed, passes⟩ := reached
  refine ⟨passed, ?_, ?_⟩
  · rw [← remaining_ofTokens]
    exact passes.remaining_eq
  · rw [passes.position, position_ofTokens, Nat.zero_add]

theorem between_eq (reached : (ofTokens tokens).Reaches first) (length : Nat) :
    Token.between tokens first.position (first.position + length) =
      (first.remaining.take length).map (·.lexeme) := by
  obtain ⟨passed, complete, position⟩ := complete_eq_of_reaches reached
  rw [Token.between, complete, position, List.take_length_add_append, List.drop_left]

/-- The token in front of a cursor is the one at its index. -/
theorem getElem?_position (reached : (ofTokens tokens).Reaches first) :
    (Token.complete tokens)[first.position]? = some first.front := by
  obtain ⟨passed, complete, position⟩ := complete_eq_of_reaches reached
  rw [complete, position, List.getElem?_append_right (Nat.le_refl _), Nat.sub_self, remaining,
    front]
  cases first.live <;> rfl

/-- **What a cursor reads are the tokens up to the index that it gets to**, as long as the mark is
not among them. -/
theorem reads_iff_between (reached : (ofTokens tokens).Reaches first) (marked : first.Marked)
    (words : endOfInputLexeme ∉ lexemes) :
    (∃ last, first.Reads lexemes last ∧ last.position = j) ↔
      first.position ≤ j ∧ Token.between tokens first.position j = lexemes := by
  constructor
  · rintro ⟨last, ⟨passed, passes, rfl⟩, rfl⟩
    refine ⟨passes.position ▸ Nat.le_add_right _ _, ?_⟩
    rw [passes.position, between_eq reached, remaining, passes.live, List.append_assoc,
      List.take_left]
  · rintro ⟨forward, spelled⟩
    obtain ⟨length, rfl⟩ := Nat.exists_eq_add_of_le forward
    rw [between_eq reached, remaining] at spelled
    have inside : length ≤ first.live.length := by
      refine Nat.le_of_not_lt fun beyond => words ?_
      rw [← spelled, ← marked]
      refine List.mem_map_of_mem (List.mem_take_iff_getElem.mpr ⟨first.live.length, ?_, ?_⟩)
      · rw [List.length_append, List.length_cons]
        omega
      · simp
    rw [List.take_append_of_le_length inside] at spelled
    have ahead : first.lexemes = lexemes ++ (first.live.drop length).map (·.lexeme) := by
      rw [← spelled, Cursor.lexemes, ← List.map_append, List.take_append_drop]
    obtain ⟨last, reads, -⟩ := exists_reads ahead
    refine ⟨last, reads, ?_⟩
    rw [reads.position_eq, ← spelled, List.length_map, List.length_take, Nat.min_eq_left inside]

end Between

end Cursor

/-- The lexeme of the mark is not among words. -/
theorem Word.AreWords.endOfInputLexeme_not_mem {lexemes : List String} (words : AreWords lexemes) :
    endOfInputLexeme ∉ lexemes := by
  intro member
  have word := words _ member
  rw [isWord_endOfInputLexeme] at word
  cases word

namespace Session

variable {session last : Session} {options : Options} {tokens : List Token}
  {requests : List Request} {replies : List Reply}

/-! ### Where requests lead -/

/-- An answer leads forward, and keeps the options. -/
theorem ask_reaches {request : Request} {reply : Reply}
    (asked : session.ask request = .ok (reply, last)) :
    session.cursor.Reaches last.cursor ∧ last.options = session.options := by
  unfold ask at asked
  split at asked
  · cases asked
  · next read =>
    cases asked
    exact ⟨(request.rule _).forward read, rfl⟩

theorem askAll_reaches (asked : session.askAll requests = .ok (replies, last)) :
    session.cursor.Reaches last.cursor ∧ last.options = session.options := by
  induction requests generalizing session replies with
  | nil =>
    cases asked
    exact ⟨.refl _, rfl⟩
  | cons request more ih =>
    obtain ⟨reply, next, rest, first, behind, -⟩ := askAll_cons_eq_ok_iff.mp asked
    obtain ⟨step, kept⟩ := ask_reaches first
    obtain ⟨steps, keptBehind⟩ := ih behind
    exact ⟨step.trans steps, keptBehind.trans kept⟩

/-! ### Statements and blocks -/

theorem ask_eq_ok_iff {request : Request} {reply : Reply} :
    session.ask request = .ok (reply, last) ↔
      (request.rule session.options.maxNestingDepth).run session.cursor =
        .ok (reply, last.cursor) ∧ last.options = session.options := by
  obtain ⟨cursor, kept⟩ := last
  unfold ask
  cases (request.rule session.options.maxNestingDepth).run session.cursor with
  | error stop => simp
  | ok step =>
    obtain ⟨found, rest⟩ := step
    simp [and_assoc, eq_comm]

/-- A request that only wraps what a rule reads is answered where the rule reads. -/
theorem exists_ask_iff {α : Type} {rule : Rule α} {wrap : α → Reply} {request : Request} {value : α}
    {j : Nat} (wraps : ∀ first second, wrap first = wrap second → first = second)
    (answers : request.rule session.options.maxNestingDepth =
      rule >>= fun value => pure (wrap value)) :
    (∃ last, session.ask request = .ok (wrap value, last) ∧ last.position = j) ↔
      ∃ last, rule.run session.cursor = .ok (value, last) ∧ last.position = j := by
  constructor
  · rintro ⟨last, asked, there⟩
    obtain ⟨read, -⟩ := ask_eq_ok_iff.mp asked
    rw [answers] at read
    obtain ⟨found, rest, read, wrapped⟩ := Rule.run_bind_eq_ok_iff.mp read
    rw [Rule.run_pure, Except.ok.injEq, Prod.mk.injEq] at wrapped
    rw [wraps _ _ wrapped.1, wrapped.2] at read
    exact ⟨last.cursor, read, there⟩
  · rintro ⟨last, read, there⟩
    refine ⟨⟨last, session.options⟩, ask_eq_ok_iff.mpr ⟨?_, rfl⟩, there⟩
    rw [answers]
    exact Rule.run_bind_of_ok read

section Exact

variable {limit j : Nat} (reached : (Cursor.ofTokens tokens).Reaches session.cursor)
  (marked : session.cursor.Marked) (limited : session.options.maxNestingDepth = limit)
include reached marked limited

theorem ask_statement_iff {s : Statement} :
    (∃ last, session.ask .statement = .ok (.fragment (.statement s), last) ∧ last.position = j) ↔
      s.depth ≤ limit ∧ session.position ≤ j ∧
        Token.between tokens session.position j = s.lexemes := by
  subst limited
  rw [@exists_ask_iff session _ (Grammar.statement session.options.maxNestingDepth)
    (fun s => .fragment (.statement s)) .statement s j (by simp) rfl, position,
    ← Cursor.reads_iff_between reached marked s.areWords_lexemes.endOfInputLexeme_not_mem]
  simp only [Grammar.statement_eq_ok_iff marked]
  constructor
  · rintro ⟨last, ⟨reads, within⟩, there⟩
    exact ⟨within, last, reads, there⟩
  · rintro ⟨within, last, reads, there⟩
    exact ⟨last, ⟨reads, within⟩, there⟩

theorem ask_block_iff {body : Block} :
    (∃ last, session.ask .block = .ok (.fragment (.block body), last) ∧ last.position = j) ↔
      Block.depth body ≤ limit ∧ session.position ≤ j ∧
        Token.between tokens session.position j = Block.lexemes body ∧
        ∃ token, (Token.complete tokens)[j]? = some token ∧
          (token.lexeme = "END" ∨ token.lexeme = "ELSE" ∨ token.isEndOfInput = true) := by
  subst limited
  rw [@exists_ask_iff session _ (Grammar.block session.options.maxNestingDepth)
    (fun body => .fragment (.block body)) .block body j (by simp) rfl, position]
  simp only [Grammar.block_eq_ok_iff marked]
  have read := @Cursor.reads_iff_between _ _ _ j reached marked
    (Block.areWords_lexemes body).endOfInputLexeme_not_mem
  -- Where the block gets to, the token at the index is the one in front.
  have ends : ∀ last, session.cursor.Reads (Block.lexemes body) last → last.position = j →
      (Grammar.blockGoesOn last = false ↔ ∃ token, (Token.complete tokens)[j]? = some token ∧
        (token.lexeme = "END" ∨ token.lexeme = "ELSE" ∨ token.isEndOfInput = true)) := by
    rintro last ⟨passed, passes, -⟩ rfl
    rw [Cursor.getElem?_position (reached.trans ⟨passed, passes⟩),
      Grammar.blockGoesOn_eq_false_iff, ← last.isEndOfInput_front]
    simp
  constructor
  · rintro ⟨last, ⟨reads, within, stops⟩, there⟩
    obtain ⟨forward, spelled⟩ := read.mp ⟨last, reads, there⟩
    exact ⟨within, forward, spelled, (ends last reads there).mp stops⟩
  · rintro ⟨within, forward, spelled, token⟩
    obtain ⟨last, reads, there⟩ := read.mpr ⟨forward, spelled⟩
    exact ⟨last, ⟨reads, within, (ends last reads there).mpr token⟩, there⟩

end Exact

/-- **Statements and blocks are taken exactly**, wherever successful requests have led a session
over a plain token list. -/
theorem ask_exact (plain : Token.Plain tokens)
    (asked : (start options tokens).askAll requests = .ok (replies, session)) :
    (∀ s j, (∃ last, session.ask .statement = .ok (.fragment (.statement s), last) ∧
        last.position = j) ↔
      s.depth ≤ options.maxNestingDepth ∧ session.position ≤ j ∧
        Token.between tokens session.position j = s.lexemes) ∧
    ∀ body j, (∃ last, session.ask .block = .ok (.fragment (.block body), last) ∧
        last.position = j) ↔
      Block.depth body ≤ options.maxNestingDepth ∧ session.position ≤ j ∧
        Token.between tokens session.position j = Block.lexemes body ∧
        ∃ token, (Token.complete tokens)[j]? = some token ∧
          (token.lexeme = "END" ∨ token.lexeme = "ELSE" ∨ token.isEndOfInput = true) := by
  obtain ⟨reached, kept⟩ := askAll_reaches asked
  have marked : session.cursor.Marked := by
    obtain ⟨passed, passes⟩ := reached
    exact Cursor.Reads.marked ⟨passed, passes, rfl⟩ (Cursor.marked_ofTokens plain)
  have limited : session.options.maxNestingDepth = options.maxNestingDepth := by
    rw [kept]
    rfl
  exact ⟨fun s j => ask_statement_iff reached marked limited,
    fun body j => ask_block_iff reached marked limited⟩

/-- Behind IF, its condition and THEN, a session takes the call that stands before ELSE as a
block. -/
theorem ask_exact_then_body :
    ∃ replies session last,
      (start {} (Token.ofLexemes ["IF", "random", "THEN", "move", "ELSE", "END"])).askAll
          [.matchKeyword "IF", .consumeCondition, .consumeKeyword "THEN"] = .ok (replies, session) ∧
        session.ask .block = .ok (.fragment (.block [.call ⟨"move", by decide +kernel⟩]), last) ∧
        last.position = 4 := by
  have plain : Token.Plain (Token.ofLexemes ["IF", "random", "THEN", "move", "ELSE", "END"]) := by
    decide +kernel
  obtain ⟨replies, session, asked, there⟩ : ∃ replies session,
      (start {} (Token.ofLexemes ["IF", "random", "THEN", "move", "ELSE", "END"])).askAll
          [.matchKeyword "IF", .consumeCondition, .consumeKeyword "THEN"] = .ok (replies, session) ∧
        session.position = 3 := ⟨_, _, rfl, by decide +kernel⟩
  obtain ⟨last, taken, behind⟩ :=
    ((ask_exact plain asked).2 [.call ⟨"move", by decide +kernel⟩] 4).mpr
      ⟨by simp [Block.depth, Statement.depth], by rw [there]; decide,
        by rw [there]; decide +kernel, _, rfl, .inr (.inl rfl)⟩
  exact ⟨replies, session, last, asked, taken, behind⟩

end Session

end BlockLanguage
