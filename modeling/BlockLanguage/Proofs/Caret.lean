/-
**The caret below a token.**

A report shows the line of a token behind its number, and below it a caret behind a bar and blanks.
The number takes up three columns, or as many as it has digits if they are more; the bar of the
caret has always four characters before it. So the caret stands below the first character of the
token, or below the mark, on the first 999 lines; from line 1000 on it stands as many columns before
it as the number has digits beyond three.

* `Shows`: what a report shows of a token.
* `shows_report`: the two offsets in a report on a token.
* `report_caret`: they differ by the digits beyond three, and are equal up to line 999.
-/

import BlockLanguage.Proofs.ErrorPlace
import BlockLanguage.Proofs.SourceLines

namespace BlockLanguage

/-! ### Lines and numbers have no line feed -/

/-- No line has a line feed. -/
theorem Text.newline_notMem_lines {text : List Char} :
    ∀ line ∈ lines text, '\n' ∉ line := by
  fun_induction lines text with
  | case1 => nofun
  | case2 rest ih => exact List.forall_mem_cons.mpr ⟨List.not_mem_nil, ih⟩
  | case3 rest ih => exact List.forall_mem_cons.mpr ⟨List.not_mem_nil, ih⟩
  | case4 c rest noFeed noReturn none ih =>
    refine List.forall_mem_singleton.mpr fun member => noFeed ?_
    exact (List.mem_singleton.mp member).symm
  | case5 c rest noFeed noReturn line more eq ih =>
    obtain ⟨inLine, inMore⟩ := List.forall_mem_cons.mp (eq ▸ ih)
    refine List.forall_mem_cons.mpr ⟨fun member => ?_, inMore⟩
    rcases List.mem_cons.mp member with here | there
    · exact noFeed here.symm
    · exact inLine there

theorem Text.newline_notMem_lineAt (text : List Char) (number : Nat) :
    '\n' ∉ lineAt text number := by
  rw [lineAt]
  cases found : (lines text)[number - 1]? with
  | none => exact List.not_mem_nil
  | some line => exact newline_notMem_lines line (List.mem_of_getElem? found)

namespace Report

/-- The blanks that lead to a column are spaces and tabs. -/
theorem mem_padding {line : List Char} {column : Nat} {c : Char}
    (member : c ∈ padding line column) : c = ' ' ∨ c = '\t' := by
  rcases List.mem_append.mp member with above | behind
  · obtain ⟨d, -, rfl⟩ := List.mem_map.mp above
    by_cases tab : d = '\t'
    · exact .inr (if_pos tab)
    · exact .inl (if_neg tab)
  · exact .inl (List.eq_of_mem_replicate behind)

theorem mem_lineNumber {number : Nat} {c : Char} (member : c ∈ (lineNumber number).toList) :
    c = ' ' ∨ c.isDigit = true := by
  rw [lineNumber, String.toList_append, String.toList_ofList] at member
  rcases List.mem_append.mp member with blank | digit
  · exact .inl (List.eq_of_mem_replicate blank)
  · rw [Nat.toString_eq_ofList_toDigits, String.toList_ofList] at digit
    exact .inr (Nat.isDigit_of_mem_toDigits (by decide) (by decide) digit)

/-- A line number takes up three columns, or as many as it has digits if they are more. -/
theorem length_lineNumber (number : Nat) :
    (lineNumber number).toList.length = 3 + ((toString number).length - 3) := by
  rw [lineNumber, String.toList_append, String.toList_ofList, List.length_append,
    List.length_replicate, String.length_toList]
  omega

/-! ### What a report shows of a token -/

/-- A report shows a token on a line of its own, and directly below it a line that has its only
caret at the end. In the one line the text line of the token comes behind a number; the offset
counts the characters before the token, or before the place of the mark, which is the end of the
line. In the other line it counts the characters before the caret. -/
inductive Shows (source : List Char) (token : Token) :
    (report : List Char) → (tokenOffset caretOffset : Nat) → Prop
  | intro {above number blanks below : List Char} (opensLine : above.getLast? = some '\n')
      (inLine : '\n' ∉ number ++ Text.lineAt source token.span.line)
      (noCaret : ∀ c ∈ blanks, c ≠ '\n' ∧ c ≠ '^')
      (word : token.isEndOfInput = false →
        token.lexeme.toList <+: (Text.lineAt source token.span.line).drop token.span.column)
      (mark : token.isEndOfInput = true →
        token.span.column = (Text.lineAt source token.span.line).length) :
    Shows source token
      (above ++ (number ++ Text.lineAt source token.span.line ++
        '\n' :: (blanks ++ '^' :: '\n' :: below)))
      (number.length + token.span.column) blanks.length

/-- What a report has before the line of a text. -/
def gutter (number : Nat) : List Char := (lineNumber number).toList ++ [' ', '|', ' ']

/-- What a report has before the caret. -/
def beforeCaret (line : List Char) (column : Nat) : List Char :=
  [' ', ' ', ' ', ' ', '|', ' '] ++ padding line column

/-- A report has the line of a text and the line of the caret directly below each other. -/
theorem exists_toList_report (file source : String) (error : ParseError) :
    ∃ above below, above.getLast? = some '\n' ∧
      (error.report file source).toList = above ++
        (gutter error.span.line ++ Text.lineAt source.toList error.span.line ++ '\n' ::
          (beforeCaret (Text.lineAt source.toList error.span.line) error.span.column ++
            '^' :: '\n' :: below)) := by
  have text : ∀ part : String, toString part = part := fun _ => rfl
  obtain ⟨above, spelled⟩ : ∃ above : String, above =
      s!"error[{error.code}]: {error.message}\n" ++
        s!"  --> {file}:{error.span.line}:{error.span.column + 1}\n" ++ "    |" := ⟨_, rfl⟩
  obtain ⟨below, help⟩ : ∃ below : List Char, below =
      ((error.help.map fun help => s!"help: {help}").toList.map (· ++ "\n")).flatMap
        String.toList := ⟨_, rfl⟩
  refine ⟨above.toList ++ ['\n'], below, List.getLast?_concat, ?_⟩
  rw [spelled, help, ParseError.report, lines, String.toList_join]
  simp [gutter, beforeCaret, text]

theorem length_gutter (number : Nat) :
    (gutter number).length = 6 + ((toString number).length - 3) := by
  rw [gutter, List.length_append, length_lineNumber]
  show _ + 3 = _
  omega

theorem newline_notMem_gutter (number : Nat) : '\n' ∉ gutter number := by
  intro member
  rcases List.mem_append.mp member with inNumber | behind
  · rcases mem_lineNumber inNumber with blank | digit
    · exact absurd blank (by decide)
    · exact absurd digit (by decide)
  · exact absurd behind (by decide)

theorem length_beforeCaret (line : List Char) (column : Nat) :
    (beforeCaret line column).length = 6 + column := by
  rw [beforeCaret, List.length_append, (padding_exact line column).1]
  rfl

theorem noCaret_beforeCaret (line : List Char) (column : Nat) :
    ∀ c ∈ beforeCaret line column, c ≠ '\n' ∧ c ≠ '^' := by
  intro c member
  rcases List.mem_append.mp member with bar | blank
  · have plain : ∀ d ∈ [' ', ' ', ' ', ' ', '|', ' '], d ≠ '\n' ∧ d ≠ '^' := by simp
    exact plain c bar
  · rcases mem_padding blank with rfl | rfl <;> decide

/-- **The report on an error shows its token.** The line number sticks out of its three columns by
the digits that it has beyond them, and the caret is not moved with it. -/
theorem shows_report {source : String} {token : Token} (file : String) {error : ParseError}
    (member : token ∈ tokenize source) (place : error.span = token.span) :
    Shows source.toList token (error.report file source).toList
      (6 + ((toString token.span.line).length - 3) + token.span.column)
      (6 + token.span.column) := by
  obtain ⟨above, below, opensLine, spelled⟩ := exists_toList_report file source error
  have inLine : '\n' ∉ gutter token.span.line ++ Text.lineAt source.toList token.span.line := by
    intro feed
    rcases List.mem_append.mp feed with inGutter | inText
    · exact newline_notMem_gutter _ inGutter
    · exact Text.newline_notMem_lineAt _ _ inText
  rw [spelled, place, ← length_gutter,
    ← length_beforeCaret (Text.lineAt source.toList token.span.line)]
  exact .intro opensLine inLine (noCaret_beforeCaret _ _) (lexeme_in_lineAt member)
    (column_of_mark member)

end Report

/-! ### The reports on parses -/

/-- An error on a source text lies in one of its tokens. -/
theorem exists_token_of_describes {limit : Nat} {source : String} {error : ParseError}
    (describes : error.Describes limit (tokenize source)) :
    ∃ token, (tokenize source)[error.position]? = some token ∧ error.span = token.span := by
  obtain ⟨token, listed, place, -⟩ := describes.token
  obtain ⟨words, eq, -⟩ := (Text.scan_segments [] source.toList).exists_eq_append
  have split : tokenize source = words ++ [Token.endOfInput (Span.behind source.toList)] := eq
  rw [split, Token.complete_concat words (Token.isEndOfInput_endOfInput _), ← split] at listed
  exact ⟨token, listed, place⟩

/-- The error that refuses a source text, whatever it is parsed as, describes a token. -/
theorem describes_of_refused {options : Options} {source : String} {error : ParseError}
    (refused : Program.parse options (tokenize source) = .error error ∨
      Statement.parse options (tokenize source) = .error error ∨
        Block.parse options (tokenize source) = .error error) :
    error.Describes options.maxNestingDepth (tokenize source) := by
  have classified := (plain_tokenize source).classified
  rcases refused with program | statement | block
  · exact Rule.describes_of_failsBy classified (Grammar.failsBy_program _) program
  · have fails := Grammar.failsBy_whole (Grammar.failsBy_statement options.maxNestingDepth)
    exact Rule.describes_of_failsBy classified (Grammar.failsBy_program_of_block fails) statement
  · have fails := Grammar.failsBy_whole (Grammar.failsBy_block options.maxNestingDepth)
    exact Rule.describes_of_failsBy classified (Grammar.failsBy_program_of_block fails) block

/-- **The caret is below the token of the error, less the digits that the line number has beyond
three**: the two are in one column just on the first 999 lines. -/
theorem report_caret {options : Options} {source : String} {error : ParseError} (file : String)
    (refused : Program.parse options (tokenize source) = .error error ∨
      Statement.parse options (tokenize source) = .error error ∨
        Block.parse options (tokenize source) = .error error) :
    ∃ token tokenOffset caretOffset,
      (tokenize source)[error.position]? = some token ∧ error.span = token.span ∧
        Report.Shows source.toList token (error.report file source).toList tokenOffset caretOffset ∧
          tokenOffset = caretOffset + ((toString token.span.line).length - 3) ∧
            (tokenOffset = caretOffset ↔ token.span.line < 1000) := by
  obtain ⟨token, listed, place⟩ := exists_token_of_describes (describes_of_refused refused)
  have shown := Report.shows_report file (List.mem_of_getElem? listed) place
  have digits : (toString token.span.line).length ≤ 3 ↔ token.span.line < 10 ^ 3 :=
    Nat.length_repr_le_iff (by decide)
  refine ⟨token, _, _, listed, place, shown, ?_, ?_⟩ <;> omega

/-- On the first line the caret is below the error, behind a tab as the error is. -/
theorem report_caret_tab :
    ∃ error token offset, Statement.parse {} (tokenize "\t+") = .error error ∧
      (tokenize "\t+")[error.position]? = some token ∧
        Report.Shows "\t+".toList token (error.report "rover.bl" "\t+").toList offset offset := by
  have tokens : tokenize "\t+" = [Token.classify "+" ⟨1, 1⟩, Token.endOfInput ⟨1, 2⟩] := by
    decide +kernel
  have failed : Statement.parse {} (tokenize "\t+") =
      .error ⟨.unexpectedToken "a statement" "+", 0, ⟨1, 1⟩, none⟩ := by
    rw [tokens]
    rfl
  obtain ⟨token, offset, caret, listed, place, shown, -, aligned⟩ :=
    report_caret "rover.bl" (.inr (.inl failed))
  refine ⟨_, token, offset, failed, listed, ?_⟩
  have first : token.span.line < 1000 := by
    rw [← place]
    decide
  rw [← aligned.mpr first] at shown
  exact shown

/-! ### A source text of a thousand lines -/

/-- Empty lines are a gap. -/
theorem gap_newlines (behind : List Char) (count : Nat) :
    Text.Gap behind (List.replicate count '\n') := by
  induction count with
  | zero => exact .nil
  | succ count ih => exact .blank Text.isBlank_newline ih

/-- A stray character below empty lines is the only token. -/
theorem tokenize_below_lines (count : Nat) :
    tokenize (String.ofList (List.replicate count '\n' ++ ['+'])) =
      [Token.classify "+" ⟨1 + count, 0⟩, Token.endOfInput ⟨1 + count, 1⟩] := by
  have before : Span.behind ([] ++ List.replicate count '\n') = ⟨1 + count, 0⟩ := by
    simp [Span.behind]
  have behind : Span.behind ([] ++ List.replicate count '\n' ++ ['+'] ++ []) =
      ⟨1 + count, 1⟩ := by
    simp [Span.behind]
  have scan : Text.Scan [] (List.replicate count '\n' ++ (['+'] ++ []))
      [Token.classify "+" ⟨1 + count, 0⟩, Token.endOfInput ⟨1 + count, 1⟩] := by
    rw [← before, ← behind]
    exact .token (gap_newlines _ count) (.stray (by decide) (List.forall_mem_nil _) (by simp))
      (.finish .nil)
  rw [tokenize, String.toList_ofList]
  exact scan.eq_tokens.symm

/-- Below empty lines the stray character is the next line. -/
theorem lineAt_below_lines (count : Nat) :
    Text.lineAt (List.replicate count '\n' ++ ['+']) (count + 1) = ['+'] := by
  have listed : Text.lines (List.replicate count '\n' ++ ['+']) =
      List.replicate count [] ++ [['+']] := by
    induction count with
    | zero => rfl
    | succ count ih =>
      rw [List.replicate_succ, List.cons_append, Text.lines_newline, ih]
      rfl
  refine Text.lineAt_of_getElem? ?_
  rw [listed, Nat.add_sub_cancel]
  simp

/-- **On line 1000 the caret is one column before the error.** -/
theorem report_caret_line_thousand :
    ∃ source error, source = String.ofList (List.replicate 999 '\n' ++ ['+']) ∧
      Statement.parse {} (tokenize source) = .error error ∧
      (tokenize source)[error.position]? = some (Token.classify "+" ⟨1000, 0⟩) ∧
      error.report "rover.bl" source = "error[BL0001]: expected a statement, found '+'\n" ++
        "  --> rover.bl:1000:1\n    |\n1000 | +\n    | ^\n" ∧
      Report.Shows source.toList (Token.classify "+" ⟨1000, 0⟩)
        (error.report "rover.bl" source).toList 7 6 := by
  obtain ⟨source, spelled⟩ : ∃ source, source =
    String.ofList (List.replicate 999 '\n' ++ ['+']) := ⟨_, rfl⟩
  have tokens : tokenize source =
      [Token.classify "+" ⟨1000, 0⟩, Token.endOfInput ⟨1000, 1⟩] := by
    rw [spelled]
    exact tokenize_below_lines 999
  have failed : Statement.parse {} (tokenize source) =
      .error ⟨.unexpectedToken "a statement" "+", 0, ⟨1000, 0⟩, none⟩ := by
    rw [tokens]
    rfl
  have picked : Text.lineAt source.toList 1000 = ['+'] := by
    rw [spelled, String.toList_ofList]
    exact lineAt_below_lines 999
  refine ⟨source, _, spelled, failed, by rw [tokens]; rfl, ?_, ?_⟩
  · rw [ParseError.report, Report.lines, picked]
    decide +kernel
  · exact Report.shows_report "rover.bl" (by rw [tokens]; exact List.mem_cons_self) rfl

end BlockLanguage
