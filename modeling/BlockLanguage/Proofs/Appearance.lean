/-
**What a parse can tell of its tokens.**

A parse asks of a token only what its lexeme is and whether it marks the end, and of no token behind
the first mark anything. Token lists that show the same are parsed alike, whatever the kinds and the
places of their tokens: to the same tree, or to errors that differ in their places at most.

* `appearance_eq_ahead`: what a list shows is what is ahead of a fresh cursor.
* `parse_unplaced_eq`: a rule that is local parses lists that show the same alike.
* `appearance_of_plain`: what a plain list shows is settled by its lexemes.
* `parse_sees_lexemes`: programs, statements and blocks; source texts; bare lexemes.
-/

import BlockLanguage.Proofs.GrammarLocality
import BlockLanguage.Proofs.Scanning

namespace BlockLanguage

namespace Token

/-- What a parse can tell of a token: its lexeme, and whether it marks the end. -/
def face (token : Token) : String × Bool := (token.lexeme, token.isEndOfInput)

/-- What a token list shows to a parse: its tokens up to the first mark of the end, that mark
included. -/
def appearance (tokens : List Token) : List (String × Bool) :=
  ((complete tokens).take (firstMark tokens + 1)).map face

end Token

/-- An error without its place in the source text. -/
def ParseError.unplaced (error : ParseError) : ParseError := { error with span := .nowhere }

/-! ### Local rules -/

/-- What a token list shows is what is ahead of the cursor at its front. -/
theorem Cursor.appearance_eq_ahead (tokens : List Token) :
    Token.appearance tokens = (ofTokens tokens).ahead.map Token.face := by
  rw [Token.appearance, firstMark_eq_length, ← remaining_ofTokens, remaining,
    List.take_length_add_append]
  rfl

section Same

variable {first second : List Token} (same : Token.appearance first = Token.appearance second)
include same

/-- The cursors at the front of lists that show the same are alike, up to any bound. -/
theorem Cursor.alike_of_appearance (bound : Nat) :
    (ofTokens first).Alike ⟨fun _ _ => True, bound, 0⟩ (ofTokens second) where
  position := (position_ofTokens second).trans (position_ofTokens first).symm
  ahead index _ := by
    rw [appearance_eq_ahead, appearance_eq_ahead] at same
    have sameAt := congrArg (·[index]?) same
    simp only [List.getElem?_map] at sameAt
    cases here : (ofTokens first).ahead[index]? with
    | none =>
      rw [here, Option.map_none, eq_comm, Option.map_eq_none_iff] at sameAt
      rw [sameAt]
      exact .none
    | some token =>
      rw [here, Option.map_some, eq_comm, Option.map_eq_some_iff] at sameAt
      obtain ⟨token', there, faces⟩ := sameAt
      obtain ⟨lexeme, mark⟩ := Prod.mk.inj faces
      rw [there]
      exact .some ⟨lexeme, mark, trivial⟩

/-- A rule that is local parses lists that show the same alike. -/
theorem Rule.parse_unplaced_eq {α : Type} {rule : Rule α}
    (alike : ∀ likeness, rule.Alike likeness rule) :
    (rule.parse first).mapError ParseError.unplaced =
      (rule.parse second).mapError ParseError.unplaced := by
  have agrees := fun bound => (alike _).agrees_of_alike (Cursor.alike_of_appearance same bound)
  unfold parse
  cases result : rule.run (.ofTokens first) with
  | ok step =>
    obtain ⟨value, rest⟩ := step
    obtain ⟨rest', result', -⟩ := (agrees (rest.position + 1)).read result (Nat.lt_succ_self _)
    rw [result']
  | error stop =>
    obtain ⟨stop', result', errors⟩ := (agrees stop.reach).refused result (Nat.le_refl _)
    rw [result']
    have unplaced : stop.error.unplaced = stop'.error.unplaced := by
      obtain ⟨⟨cause, position, span, help⟩, cursor⟩ := stop
      obtain ⟨⟨cause', position', span', help'⟩, cursor'⟩ := stop'
      cases errors.cause
      cases errors.position
      cases errors.help
      rfl
    exact congrArg Except.error unplaced

end Same

/-- Two token lists are parsed alike: as programs, as statements and as blocks, whether or not
something may follow these. Errors may differ in their places in the source text only. -/
structure ParsedAlike (options : Options) (first second : List Token) : Prop where
  program : (Program.parse options first).mapError ParseError.unplaced =
    (Program.parse options second).mapError ParseError.unplaced
  statement : (Statement.parse options first).mapError ParseError.unplaced =
    (Statement.parse options second).mapError ParseError.unplaced
  block : (Block.parse options first).mapError ParseError.unplaced =
    (Block.parse options second).mapError ParseError.unplaced
  leadingStatement :
    ((Grammar.statement options.maxNestingDepth).parse first).mapError ParseError.unplaced =
      ((Grammar.statement options.maxNestingDepth).parse second).mapError ParseError.unplaced
  leadingBlock :
    ((Grammar.block options.maxNestingDepth).parse first).mapError ParseError.unplaced =
      ((Grammar.block options.maxNestingDepth).parse second).mapError ParseError.unplaced

theorem ParsedAlike.of_appearance (options : Options) {first second : List Token}
    (same : Token.appearance first = Token.appearance second) :
    ParsedAlike options first second where
  program := Rule.parse_unplaced_eq same fun _ => Grammar.alike_program _
  statement := Rule.parse_unplaced_eq same fun _ => Grammar.alike_whole (Grammar.alike_statement _)
  block := Rule.parse_unplaced_eq same fun _ => Grammar.alike_whole (Grammar.alike_block _)
  leadingStatement := Rule.parse_unplaced_eq same fun _ => Grammar.alike_statement _
  leadingBlock := Rule.parse_unplaced_eq same fun _ => Grammar.alike_block _

/-! ### Plain lists -/

namespace Token

/-- What a plain list shows is settled by its lexemes. -/
theorem appearance_of_plain {tokens : List Token} (plain : Plain tokens) :
    appearance tokens = (lexemes tokens).map (·, false) ++ [(endOfInputLexeme, true)] := by
  obtain ⟨words, mark, complete, opened, closes, lexeme, spelled⟩ := plain.exists_complete_eq
  have ahead := (Cursor.remaining_ofTokens tokens).trans complete
  obtain ⟨live, sentinel, -⟩ := Cursor.eq_of_remaining_eq ahead opened closes
  have faces : words.map face = (lexemes tokens).map (·, false) := by
    rw [spelled, List.map_map]
    refine List.map_congr_left fun token member => ?_
    rw [face, opened token member]
    rfl
  rw [Cursor.appearance_eq_ahead, Cursor.ahead, live, sentinel, List.map_append, faces,
    List.map_singleton, face, lexeme, closes]

theorem Plain.endOfInputLexeme_not_mem {tokens : List Token} (plain : Plain tokens) :
    endOfInputLexeme ∉ lexemes tokens := by
  intro member
  obtain ⟨token, inside, marks⟩ := List.mem_map.mp member
  obtain ⟨listed, opened⟩ := List.mem_filter.mp inside
  have kind : token.kind = .endOfInput := by
    rw [plain.classified token listed, TokenKind.ofLexeme_eq_endOfInput_iff, marks]
  simp [isEndOfInput, kind] at opened

theorem ofLexemes_concat (texts : List String) (last : String) :
    ofLexemes (texts ++ [last]) = ofLexemes texts ++ [classify last ⟨1, texts.length⟩] :=
  List.mapIdx_concat

theorem isEndOfInput_of_mem_ofLexemes {texts : List String} (unmarked : endOfInputLexeme ∉ texts) :
    ∀ token ∈ ofLexemes texts, token.isEndOfInput = false := by
  intro token member
  obtain ⟨index, inside, rfl⟩ := List.mem_mapIdx.mp member
  rw [isEndOfInput, decide_eq_false_iff_not]
  intro marks
  refine unmarked ?_
  rw [← TokenKind.ofLexeme_eq_endOfInput_iff.mp marks]
  exact List.getElem_mem inside

theorem classified_of_mem_ofLexemes {texts : List String} :
    ∀ token ∈ ofLexemes texts, token.kind = .ofLexeme token.lexeme := by
  intro token member
  obtain ⟨index, inside, rfl⟩ := List.mem_mapIdx.mp member
  rfl

/-- Bare lexemes, with or without that of the mark behind them, give a plain list of them. -/
theorem plain_ofLexemes {texts : List String} (unmarked : endOfInputLexeme ∉ texts) :
    Plain (ofLexemes texts) ∧ Plain (ofLexemes (texts ++ [endOfInputLexeme])) where
  left := by
    refine ⟨classified_of_mem_ofLexemes, fun token member => ?_⟩
    exact isEndOfInput_of_mem_ofLexemes unmarked token (List.dropLast_subset _ member)
  right := by
    refine ⟨classified_of_mem_ofLexemes, fun token member => ?_⟩
    rw [ofLexemes_concat, List.dropLast_concat] at member
    exact isEndOfInput_of_mem_ofLexemes unmarked token member

theorem lexemes_ofLexemes {texts : List String} (unmarked : endOfInputLexeme ∉ texts) :
    lexemes (ofLexemes texts) = texts ∧
      lexemes (ofLexemes (texts ++ [endOfInputLexeme])) = texts := by
  have spelled : lexemes (ofLexemes texts) = texts := by
    rw [lexemes_eq_map (isEndOfInput_of_mem_ofLexemes unmarked), ofLexemes,
      List.mapIdx_eq_zipIdx_map, List.map_map]
    exact List.zipIdx_map_fst 0 texts
  refine ⟨spelled, ?_⟩
  rw [ofLexemes_concat, lexemes_append, spelled]
  exact List.append_nil texts

end Token

/-- Plain lists of the same lexemes are parsed alike. -/
theorem ParsedAlike.of_plain (options : Options) {first second : List Token}
    (firstPlain : Token.Plain first) (secondPlain : Token.Plain second)
    (same : Token.lexemes first = Token.lexemes second) : ParsedAlike options first second := by
  refine .of_appearance options ?_
  rw [Token.appearance_of_plain firstPlain, Token.appearance_of_plain secondPlain, same]

/-- The lexemes of all tokens of a source text: those of its words and strays, and that of the
mark. -/
theorem map_lexeme_tokenize (source : String) :
    (tokenize source).map (·.lexeme) =
      Token.lexemes (tokenize source) ++ [endOfInputLexeme] := by
  obtain ⟨words, mark, eq, each, -⟩ := Segment.exists_tokens_eq .start (segments source.toList)
  have spelled : Token.lexemes (words ++ [Token.endOfInput mark]) = words.map (·.lexeme) := by
    rw [Token.lexemes_append, Token.lexemes_eq_map fun token member => (each token member).2]
    exact List.append_nil _
  rw [tokenize, eq, spelled, List.map_append]
  rfl

/-! ### What is parsed alike -/

/-- **A parse sees lexemes up to the first mark of the end**, and which token that mark is. So
source texts of the same lexemes are parsed alike, whatever stands between these, and the bare
lexemes of a source text, with or without that of the mark, are parsed like the text. -/
theorem parse_sees_lexemes (options : Options) :
    (∀ first second : List Token, Token.appearance first = Token.appearance second →
      ParsedAlike options first second) ∧
    (∀ first second : String,
      Token.lexemes (tokenize first) = Token.lexemes (tokenize second) →
        ParsedAlike options (tokenize first) (tokenize second)) ∧
    ∀ source : String,
      ParsedAlike options (Token.ofLexemes (Token.lexemes (tokenize source))) (tokenize source) ∧
      ParsedAlike options (Token.ofLexemes ((tokenize source).map (·.lexeme)))
        (tokenize source) := by
  refine ⟨fun first second => .of_appearance options, fun first second same => ?_, fun source => ?_⟩
  · exact .of_plain options (plain_tokenize first) (plain_tokenize second) same
  · have unmarked := (plain_tokenize source).endOfInputLexeme_not_mem
    obtain ⟨plain, plainMarked⟩ := Token.plain_ofLexemes unmarked
    obtain ⟨spelled, spelledMarked⟩ := Token.lexemes_ofLexemes unmarked
    refine ⟨.of_plain options plain (plain_tokenize source) spelled, ?_⟩
    rw [map_lexeme_tokenize]
    exact .of_plain options plainMarked (plain_tokenize source) spelledMarked

/-- An IF whose tokens are of other kinds than their lexemes say ends at the mark that says DO, like
the same lexemes at other places and with nothing behind them. -/
theorem parse_sees_lexemes_other_kinds :
    ∃ first second : List Token,
      first = [⟨.error, "IF", ⟨1, 0⟩⟩, ⟨.keyword, "random", ⟨1, 3⟩⟩, ⟨.endOfInput, "DO", ⟨2, 0⟩⟩,
        ⟨.keyword, "THEN", ⟨2, 3⟩⟩] ∧
      second = [⟨.keyword, "IF", ⟨7, 0⟩⟩, ⟨.condition, "random", ⟨8, 0⟩⟩,
        ⟨.endOfInput, "DO", ⟨9, 0⟩⟩] ∧
      Token.appearance first = Token.appearance second ∧
      (Statement.parse {} first).mapError ParseError.unplaced =
        .error ⟨.unexpectedEndOfInput "'THEN'", 2, .nowhere, none⟩ := by
  refine ⟨_, _, rfl, rfl, by decide +kernel, ?_⟩
  refine ((parse_sees_lexemes {}).1 _ _ (?_ : _ = Token.appearance
    [⟨.keyword, "IF", ⟨7, 0⟩⟩, ⟨.condition, "random", ⟨8, 0⟩⟩,
      ⟨.endOfInput, "DO", ⟨9, 0⟩⟩])).statement.trans rfl
  decide +kernel

end BlockLanguage
