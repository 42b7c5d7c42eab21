/-
**Plain token lists.**

In a plain token list every kind is the one that the lexeme has by itself, and only the last token
may mark the end. A cursor at the front of such a list has all its lexemes ahead and stands before a
mark that is no word, so that what a parse gives is settled by the lexemes.

* `Token.lexemes`: the lexemes of a token list, a mark of the end left out.
* `marked_ofTokens`, `lexemes_ofTokens`: the cursor at the front of a plain list.
* `reads_all_iff`: when lexemes are all that is ahead.
-/

import BlockLanguage.Parse
import BlockLanguage.Proofs.Reading

namespace BlockLanguage

/-- Only the lexeme of the mark is of the kind that marks the end. -/
theorem TokenKind.ofLexeme_eq_endOfInput_iff {lexeme : String} :
    ofLexeme lexeme = .endOfInput ↔ lexeme = endOfInputLexeme := by
  unfold ofLexeme
  by_cases same : lexeme = endOfInputLexeme
  · simp [same]
  · rw [if_neg same]
    simp only [same, iff_false]
    split
    · decide
    · split
      · decide
      · split <;> decide

namespace Token

/-- Every kind is the one that the lexeme has by itself, and no token but the last marks the end. -/
structure Plain (tokens : List Token) : Prop where
  classified : ∀ token ∈ tokens, token.kind = .ofLexeme token.lexeme
  openBefore : ∀ token ∈ tokens.dropLast, token.isEndOfInput = false

instance (tokens : List Token) : Decidable (Plain tokens) :=
  decidable_of_iff ((∀ token ∈ tokens, token.kind = .ofLexeme token.lexeme) ∧
      ∀ token ∈ tokens.dropLast, token.isEndOfInput = false)
    ⟨fun both => ⟨both.1, both.2⟩, fun plain => ⟨plain.classified, plain.openBefore⟩⟩

/-- The lexemes of a token list, marks of the end left out. -/
def lexemes (tokens : List Token) : List String :=
  (tokens.filter (!·.isEndOfInput)).map (·.lexeme)

theorem lexemes_append (first second : List Token) :
    lexemes (first ++ second) = lexemes first ++ lexemes second := by
  rw [lexemes, List.filter_append, List.map_append]
  rfl

theorem lexemes_eq_map {tokens : List Token}
    (opened : ∀ token ∈ tokens, token.isEndOfInput = false) :
    lexemes tokens = tokens.map (·.lexeme) := by
  rw [lexemes, List.filter_eq_self.mpr]
  intro token member
  rw [opened token member]
  rfl

/-- The mark that may be added has the kind of its lexeme as well. -/
theorem complete_classified {tokens : List Token}
    (classified : ∀ token ∈ tokens, token.kind = .ofLexeme token.lexeme) :
    ∀ token ∈ complete tokens, token.kind = .ofLexeme token.lexeme := by
  have mark : ∀ span, (endOfInput span).kind = .ofLexeme (endOfInput span).lexeme :=
    fun _ => (TokenKind.ofLexeme_eq_endOfInput_iff.mpr rfl).symm
  intro token member
  rw [complete] at member
  split at member
  · rw [List.mem_singleton.mp member]
    exact mark _
  · split at member
    · exact classified token member
    · rcases List.mem_append.mp member with inside | added
      · exact classified token inside
      · rw [List.mem_singleton.mp added]
        exact mark _

/-- A plain list, completed, is a run of open tokens before one mark with its own lexeme. -/
theorem Plain.exists_complete_eq {tokens : List Token} (plain : Plain tokens) :
    ∃ words mark, complete tokens = words ++ [mark] ∧
      (∀ token ∈ words, token.isEndOfInput = false) ∧ mark.isEndOfInput = true ∧
        mark.lexeme = endOfInputLexeme ∧ lexemes tokens = words.map (·.lexeme) := by
  unfold complete
  split
  · next none =>
    rw [List.getLast?_eq_none_iff.mp none]
    exact ⟨[], endOfInput .nowhere, rfl, by simp, isEndOfInput_endOfInput _, rfl, rfl⟩
  · next last found =>
    obtain ⟨before, rfl⟩ := List.getLast?_eq_some_iff.mp found
    have opened : ∀ token ∈ before, token.isEndOfInput = false := by
      intro token member
      refine plain.openBefore token ?_
      rw [List.dropLast_concat]
      exact member
    split
    · next marked =>
      have kind : last.kind = .endOfInput := by simpa [isEndOfInput] using marked
      have lexeme : last.lexeme = endOfInputLexeme := by
        rw [← TokenKind.ofLexeme_eq_endOfInput_iff, ← kind]
        exact (plain.classified last (by simp)).symm
      have none : lexemes [last] = [] := by simp [lexemes, marked]
      refine ⟨before, last, rfl, opened, marked, lexeme, ?_⟩
      rw [lexemes_append, none, List.append_nil, lexemes_eq_map opened]
    · next unmarked =>
      have allOpened : ∀ token ∈ before ++ [last], token.isEndOfInput = false := by
        intro token member
        rcases List.mem_append.mp member with inside | same
        · exact opened token inside
        · rw [List.mem_singleton.mp same]
          exact eq_false_of_ne_true unmarked
      exact ⟨before ++ [last], endOfInput last.span, rfl, allOpened, isEndOfInput_endOfInput _,
        rfl, lexemes_eq_map allOpened⟩

end Token

/-- The index of the first mark of the end among the completed tokens. -/
def Token.firstMark (tokens : List Token) : Nat := (complete tokens).findIdx (·.isEndOfInput)

namespace Cursor

/-! ### The front of a token list -/

/-- The first mark stands behind the open tokens that a fresh cursor has ahead. -/
theorem firstMark_eq_length (tokens : List Token) :
    Token.firstMark tokens = (ofTokens tokens).live.length := by
  have none : (ofTokens tokens).live.findIdx (·.isEndOfInput) = (ofTokens tokens).live.length :=
    List.findIdx_eq_length.mpr fun token member => by
      simp [(ofTokens tokens).live_open token member]
  rw [Token.firstMark, ← remaining_ofTokens, remaining, List.findIdx_append, none,
    if_neg (Nat.lt_irrefl _), List.findIdx_cons, (ofTokens tokens).sentinel_closes, cond_true,
    Nat.zero_add]

/-- What is ahead before the mark are the open tokens ahead. -/
theorem live_eq_takeWhile (cursor : Cursor) :
    cursor.live = cursor.remaining.takeWhile (!·.isEndOfInput) := by
  rw [remaining, List.takeWhile_append_of_pos]
  · rw [List.takeWhile_cons_of_neg (by simp [cursor.sentinel_closes]), List.append_nil]
  · intro token member
    rw [cursor.live_open token member]
    rfl

/-- A cursor before open tokens and a mark has these tokens ahead of it, and that mark. -/
theorem eq_of_remaining_eq {cursor : Cursor} {words beyond : List Token} {mark : Token}
    (ahead : cursor.remaining = words ++ mark :: beyond)
    (opened : ∀ token ∈ words, token.isEndOfInput = false) (closes : mark.isEndOfInput = true) :
    cursor.live = words ∧ cursor.sentinel = mark ∧ cursor.beyond = beyond := by
  have live : cursor.live = words := by
    rw [live_eq_takeWhile, ahead, List.takeWhile_append_of_pos]
    · rw [List.takeWhile_cons_of_neg (by simp [closes]), List.append_nil]
    · intro token member
      rw [opened token member]
      rfl
  rw [remaining, live] at ahead
  exact ⟨live, List.cons.inj (List.append_cancel_left ahead)⟩

/-- Where every kind is the one of its lexeme, the first mark has its own lexeme. -/
theorem marked_of_classified {tokens : List Token}
    (classified : ∀ token ∈ tokens, token.kind = .ofLexeme token.lexeme) :
    (ofTokens tokens).Marked := by
  have member : (ofTokens tokens).sentinel ∈ Token.complete tokens := by
    rw [← remaining_ofTokens, remaining]
    exact List.mem_append_right _ List.mem_cons_self
  have kind : (ofTokens tokens).sentinel.kind = .endOfInput := by
    simpa [Token.isEndOfInput] using (ofTokens tokens).sentinel_closes
  rw [Marked, ← TokenKind.ofLexeme_eq_endOfInput_iff, ← kind]
  exact (Token.complete_classified classified _ member).symm

section Plain

variable {tokens : List Token} (plain : Token.Plain tokens)
include plain

theorem marked_ofTokens : (ofTokens tokens).Marked :=
  marked_of_classified plain.classified

theorem lexemes_ofTokens : (ofTokens tokens).lexemes = Token.lexemes tokens := by
  obtain ⟨words, mark, complete, opened, closes, -, spelled⟩ := plain.exists_complete_eq
  have ahead := (remaining_ofTokens tokens).trans complete
  rw [lexemes, (eq_of_remaining_eq ahead opened closes).1, spelled]

end Plain

/-- All lexemes ahead can be read, and then the end is reached. -/
theorem reads_all_iff {first : Cursor} {lexemes : List String} :
    (∃ last, first.Reads lexemes last ∧ last.atEnd = true) ↔ first.lexemes = lexemes := by
  constructor
  · rintro ⟨last, reads, ended⟩
    rw [reads.lexemes_eq, (atEnd_iff_lexemes last).mp ended, List.append_nil]
  · intro same
    obtain ⟨last, reads, none⟩ := exists_reads (same.trans (List.append_nil lexemes).symm)
    exact ⟨last, reads, (atEnd_iff_lexemes last).mpr none⟩

end Cursor

/-! ### The results of a parse -/

namespace Rule

variable {α : Type} {rule : Rule α} {tokens : List Token}

theorem parse_eq_ok_iff {value : α} :
    rule.parse tokens = .ok value ↔ ∃ last, rule.run (.ofTokens tokens) = .ok (value, last) := by
  unfold parse
  cases rule.run (.ofTokens tokens) with
  | error stop => simp
  | ok step =>
    obtain ⟨found, last⟩ := step
    simp

theorem parse_eq_error_iff {error : ParseError} :
    rule.parse tokens = .error error ↔
      ∃ stop, rule.run (.ofTokens tokens) = .error stop ∧ stop.error = error := by
  unfold parse
  cases rule.run (.ofTokens tokens) with
  | error stop => simp
  | ok step =>
    obtain ⟨found, last⟩ := step
    simp

end Rule

end BlockLanguage
