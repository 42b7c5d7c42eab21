/-
**What a scan finds in a text.**

The tokens of a source text are plain: each has the kind of its lexeme, and only the last marks the
end. Blanks separate the lexemes, so that a printed text is scanned into the words of its lines.

* `plain_tokenize`, `lexemes_tokenize`: the tokens of a source text.
* `Text.lexemes_join`: the lexemes of printed lines are their words.
* `lexemes_tokenize_text`: a printed program is scanned into the lexemes that spell it.
-/

import BlockLanguage.Proofs.Acceptance

namespace BlockLanguage

namespace Segment

/-- The texts of the segments that are lexemes. -/
def lexemes (segments : List Segment) : List String :=
  (segments.filter (·.kind.isLexeme)).map (·.text)

theorem lexemes_cons (segment : Segment) (more : List Segment) :
    lexemes (segment :: more) =
      if segment.kind.isLexeme then segment.text :: lexemes more else lexemes more := by
  rw [lexemes, List.filter_cons]
  split <;> rfl

end Segment

/-- The lexemes of a text. -/
def Text.lexemes (text : List Char) : List String := Segment.lexemes (segments text)

/-! ### The tokens of segments -/

/-- No lexeme of a text is that of the mark, which begins like a comment. -/
theorem Segment.text_ne_endOfInputLexeme {segment : Segment}
    (lexeme : segment.kind.isLexeme = true) : segment.text ≠ endOfInputLexeme := by
  intro same
  have chars := congrArg String.toList same
  rw [text, String.toList_ofList] at chars
  have first : segment.first = '#' := (List.cons.inj chars).1
  rw [kind, first] at lexeme
  exact absurd lexeme (by decide)

/-- Segments give tokens of the kinds of their texts, and then one mark. -/
theorem Segment.exists_tokens_eq (span : Span) (segments : List Segment) :
    ∃ words mark, tokens span segments = words ++ [Token.endOfInput mark] ∧
      (∀ token ∈ words, token.kind = .ofLexeme token.lexeme ∧ token.isEndOfInput = false) ∧
      words.map (·.lexeme) = lexemes segments := by
  induction segments generalizing span with
  | nil => exact ⟨[], span, rfl, List.forall_mem_nil _, rfl⟩
  | cons segment more ih =>
    obtain ⟨words, mark, behind, each, spelled⟩ := ih (span.after segment.chars)
    rw [tokens]
    by_cases lexeme : segment.kind.isLexeme = true
    · have kind : (Token.classify segment.text span).isEndOfInput = false := by
        rw [Token.isEndOfInput, decide_eq_false_iff_not]
        exact fun marks =>
          text_ne_endOfInputLexeme lexeme (TokenKind.ofLexeme_eq_endOfInput_iff.mp marks)
      refine ⟨Token.classify segment.text span :: words, mark, ?_,
        List.forall_mem_cons.mpr ⟨⟨rfl, kind⟩, each⟩, ?_⟩
      · rw [behind, if_pos lexeme, List.cons_append]
      · rw [List.map_cons, spelled, lexemes_cons, if_pos lexeme]
        rfl
    · refine ⟨words, mark, ?_, each, ?_⟩
      · rw [behind, if_neg lexeme]
      · rw [spelled, lexemes_cons, if_neg lexeme]

/-- The tokens of a source text are plain. -/
theorem plain_tokenize (source : String) : Token.Plain (tokenize source) := by
  obtain ⟨words, mark, eq, each, -⟩ := Segment.exists_tokens_eq .start (segments source.toList)
  rw [tokenize, eq]
  refine ⟨fun token member => ?_, fun token member => ?_⟩
  · rcases List.mem_append.mp member with inside | last
    · exact (each token inside).1
    · rw [List.mem_singleton.mp last]
      exact (TokenKind.ofLexeme_eq_endOfInput_iff.mpr rfl).symm
  · rw [List.dropLast_concat] at member
    exact (each token member).2

theorem lexemes_tokenize (source : String) :
    Token.lexemes (tokenize source) = Text.lexemes source.toList := by
  obtain ⟨words, mark, eq, each, spelled⟩ :=
    Segment.exists_tokens_eq .start (segments source.toList)
  have mark : Token.lexemes [Token.endOfInput mark] = [] := rfl
  rw [tokenize, eq, Token.lexemes_append, mark, List.append_nil,
    Token.lexemes_eq_map fun token member => (each token member).2, spelled, Text.lexemes]

/-! ### Blanks between words -/

namespace Text

theorem lexemes_nil : lexemes [] = [] := by
  rw [lexemes, segments_nil]
  rfl

/-- A blank adds nothing. -/
theorem lexemes_blank {blank : Char} (isBlank : isBlank blank = true) (rest : List Char) :
    lexemes (blank :: rest) = lexemes rest := by
  have kind : SegmentClass.ofChar blank = .blank := if_pos isBlank
  have alone : ∀ text : List Char, text.dropWhile (SegmentClass.continues .blank) = text := by
    intro text
    cases text <;> rfl
  rw [lexemes, segments_cons, Segment.lexemes_cons, kind, alone, Segment.kind, kind]
  rfl

/-- What goes on in a word has a code between those of `-` and `z`. -/
theorem toNat_of_continuesWord {c : Char} (continues : Word.continuesWord c = true) :
    45 ≤ c.toNat ∧ c.toNat ≤ 122 := by
  rw [Word.continuesWord, Bool.or_eq_true, decide_eq_true_eq] at continues
  rcases continues with alphanum | rfl
  · have ranges : (decide (c.val ≥ 'A'.val ∧ c.val ≤ 'Z'.val) ||
        (c.val ≥ 'a'.val && c.val ≤ 'z'.val) || (c.val ≥ '0'.val && c.val ≤ '9'.val)) = true :=
      alphanum
    simp only [Bool.or_eq_true, Bool.and_eq_true, decide_eq_true_eq, UInt32.le_iff_toNat_le,
      ge_iff_le, Char.toNat_val, Char.reduceToNat] at ranges
    omega
  · decide

theorem isBlank_eq_false_of_continuesWord {c : Char} (continues : Word.continuesWord c = true) :
    isBlank c = false := by
  have code := toNat_of_continuesWord continues
  refine eq_false_of_ne_true fun blank => ?_
  simp only [isBlank, blankRanges, List.any_cons, List.any_nil, Bool.or_eq_true, Bool.and_eq_true,
    decide_eq_true_eq, Bool.false_eq_true, or_false] at blank
  omega

theorem ofChar_of_isAlpha {c : Char} (alpha : c.isAlpha = true) :
    SegmentClass.ofChar c = .word := by
  have alphanum : c.isAlphanum = true := by rw [Char.isAlphanum, alpha, Bool.true_or]
  have continues : Word.continuesWord c = true := by
    rw [Word.continuesWord, alphanum, Bool.true_or]
  have noComment : c ≠ '#' := by
    rintro rfl
    exact absurd alpha (by decide)
  rw [SegmentClass.ofChar, isBlank_eq_false_of_continuesWord continues, if_neg Bool.false_ne_true,
    if_neg noComment, if_pos alphanum]

/-- A word before a blank is the first lexeme. -/
theorem lexemes_word {word : String} {blank : Char} (isWord : Word.isWord word = true)
    (isBlank : isBlank blank = true) (rest : List Char) :
    lexemes (word.toList ++ blank :: rest) = word :: lexemes rest := by
  have stops : ¬ Word.continuesWord blank = true := by
    intro continues
    rw [isBlank_eq_false_of_continuesWord continues] at isBlank
    cases isBlank
  rw [Word.isWord] at isWord
  cases chars : word.toList with
  | nil =>
    rw [chars] at isWord
    cases isWord
  | cons first more =>
    rw [chars, Word.isWordShaped, Bool.and_eq_true, List.all_eq_true] at isWord
    obtain ⟨alpha, continues⟩ := isWord
    have kind := ofChar_of_isAlpha alpha
    have text : Segment.text ⟨first, more⟩ = word := by
      rw [Segment.text, Segment.chars, ← chars, String.ofList_toList]
    have same : SegmentClass.continues .word = Word.continuesWord := funext fun _ => rfl
    have taken : (more ++ blank :: rest).takeWhile (SegmentClass.continues .word) = more := by
      rw [same, List.takeWhile_append_of_pos continues, List.takeWhile_cons_of_neg stops,
        List.append_nil]
    have left : (more ++ blank :: rest).dropWhile (SegmentClass.continues .word) =
        blank :: rest := by
      rw [same, List.dropWhile_append_of_pos continues, List.dropWhile_cons_of_neg stops]
    rw [List.cons_append, lexemes, segments_cons, kind, taken, left, Segment.lexemes_cons,
      Segment.kind, kind, text]
    exact congrArg (word :: ·) (lexemes_blank isBlank rest)

/-! ### The words of printed lines -/

theorem lexemes_spaces (count : Nat) (rest : List Char) :
    lexemes (List.replicate count ' ' ++ rest) = lexemes rest := by
  induction count with
  | zero => rfl
  | succ count ih =>
    rw [List.replicate_succ, List.cons_append, lexemes_blank (by decide), ih]

/-- Words with single spaces between them, up to the end of their line. -/
theorem lexemes_intercalate {words : List String} (areWords : Word.AreWords words)
    (rest : List Char) :
    lexemes ((" ".intercalate words).toList ++ '\n' :: rest) = words ++ lexemes rest := by
  induction words with
  | nil =>
    rw [String.intercalate_nil]
    exact lexemes_blank isBlank_newline rest
  | cons word more ih =>
    obtain ⟨first, others⟩ := Word.areWords_cons_iff.mp areWords
    cases more with
    | nil =>
      rw [String.intercalate_singleton, lexemes_word first isBlank_newline]
      rfl
    | cons next more =>
      rw [String.intercalate_cons_cons, String.toList_append, String.toList_append,
        List.append_assoc, List.append_assoc]
      show lexemes (word.toList ++ ' ' :: ((" ".intercalate (next :: more)).toList ++ _)) = _
      rw [lexemes_word first (by decide), ih others]
      rfl

/-- The lexemes of printed lines are their words. -/
theorem lexemes_join {lines : List Line}
    (words : Word.AreWords (lines.flatMap (·.words))) :
    lexemes (Line.join lines).toList = lines.flatMap (·.words) := by
  rw [Line.join, String.toList_join]
  induction lines with
  | nil => exact lexemes_nil
  | cons line more ih =>
    rw [List.flatMap_cons, Word.areWords_append_iff] at words
    rw [List.map_cons, List.flatMap_cons, List.flatMap_cons, ← ih words.2, Line.text,
      String.toList_append, String.toList_append, String.toList_ofList, List.append_assoc,
      List.append_assoc, lexemes_spaces]
    exact lexemes_intercalate words.1 _

end Text

/-! ### Printed statements and programs -/

mutual

/-- The words of a printed statement, line by line, are its lexemes. -/
theorem Statement.words_lines (indent : Nat) : ∀ s : Statement,
    (s.lines indent).flatMap (·.words) = s.lexemes
  | .ifThen c body => by
    simp [Statement.lines, Statement.lexemes, Block.words_lines (indent + indentStep) body]
  | .ifElse c thenBody elseBody => by
    simp [Statement.lines, Statement.lexemes, Block.words_lines (indent + indentStep) thenBody,
      Block.words_lines (indent + indentStep) elseBody]
  | .whileDo c body => by
    simp [Statement.lines, Statement.lexemes, Block.words_lines (indent + indentStep) body]
  | .call name => by simp [Statement.lines, Statement.lexemes]

/-- The words of a printed block, line by line, are its lexemes. -/
theorem Block.words_lines (indent : Nat) : ∀ body : List Statement,
    (Block.lines indent body).flatMap (·.words) = Block.lexemes body
  | [] => by simp [Block.lines, Block.lexemes]
  | first :: more => by
    simp [Block.lines, Block.lexemes, Statement.words_lines indent first,
      Block.words_lines indent more]

end

namespace Program

theorem words_definitionLines (entry : Identifier × Block) :
    (definitionLines entry).flatMap (·.words) = definitionLexemes entry := by
  simp [definitionLines, definitionLexemes, Block.words_lines]

/-- The words of a printed program spell it, with its definitions in the order of their names. -/
theorem words_lines (program : Program) :
    program.lines.flatMap (·.words) =
      spelling program.name program.context.entries program.body := by
  have definitions : (program.context.entries.flatMap definitionLines).flatMap (·.words) =
      program.context.entries.flatMap definitionLexemes := by
    rw [List.flatMap_assoc]
    exact congrArg (program.context.entries.flatMap ·) (funext words_definitionLines)
  simp [lines, spelling, definitions, Block.words_lines]

theorem areWords_definitionLexemes (entry : Identifier × Block) :
    Word.AreWords (definitionLexemes entry) := by
  simp (disch := decide) [definitionLexemes, Word.isWord_of_keyword, Block.areWords_lexemes]

theorem areWords_spelling (name : Identifier) (definitions : Context.Entries) (body : Block) :
    Word.AreWords (spelling name definitions body) := by
  simp (disch := decide) [spelling, Word.areWords_flatMap_iff, areWords_definitionLexemes,
    Word.isWord_of_keyword, Block.areWords_lexemes]

/-- **A printed program is scanned into the lexemes that spell it.** -/
theorem lexemes_tokenize_text (program : Program) :
    Token.lexemes (tokenize program.text) =
      spelling program.name program.context.entries program.body := by
  have words : Word.AreWords (program.lines.flatMap (·.words)) := by
    rw [words_lines]
    exact areWords_spelling _ _ _
  rw [lexemes_tokenize, text, Text.lexemes_join words, words_lines]

end Program

end BlockLanguage
