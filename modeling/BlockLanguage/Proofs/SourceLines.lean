/-
**Places and lines count alike.**

The scan counts line feeds and the characters since the last of them; a report picks a line from
the list of a text's lines, in which a line feed takes one carriage return before it away. The two
agree: the line that a report picks for a token has the token's lexeme at its column, and the mark
of the end stands directly behind the last line, or on a line of its own that is not listed.

* `lines_append_newline`, `lines_append`: the lines of a text, piece by piece.
* `exists_getElem?_lines`: the line of a place.
* `Scan.exists_place`: every token has its place before its lexeme.
* `tokenize_places`: tokens, the mark of the end, and the blanks that lead to a column.
-/

import BlockLanguage.Proofs.Tokenization
import BlockLanguage.Report

namespace BlockLanguage

namespace Text

/-! ### The lines of a text, piece by piece -/

/-- A line without the carriage return that may stand at its end. -/
def withoutReturn (line : List Char) : List Char :=
  if line.getLast? = some '\r' then line.dropLast else line

/-- What is in front of the last characters of a line stays. -/
theorem withoutReturn_append (first : List Char) {more : List Char} (notEmpty : more ≠ []) :
    withoutReturn (first ++ more) = first ++ withoutReturn more := by
  have last : (first ++ more).getLast? = more.getLast? := by
    rw [List.getLast?_append, List.getLast?_eq_some_getLast notEmpty]
    rfl
  rw [withoutReturn, withoutReturn, last, List.dropLast_append_of_ne_nil notEmpty]
  split <;> rfl

theorem lines_newline (rest : List Char) : lines ('\n' :: rest) = [] :: lines rest := by
  rw [lines]

/-- A character that ends no line goes in front of the first line. -/
theorem lines_cons {c : Char} {rest : List Char} (noFeed : c ≠ '\n')
    (noReturn : c = '\r' → ∀ d ∈ rest.head?, d ≠ '\n') :
    lines (c :: rest) = (c :: (lines rest).headD []) :: (lines rest).tail := by
  rw [lines.eq_4 c rest]
  · cases lines rest <;> rfl
  · exact noFeed
  · rintro more rfl rfl
    exact noReturn rfl '\n' rfl rfl

/-- A line, up to its line feed, is the first line. -/
theorem lines_append_newline {line : List Char} (inLine : '\n' ∉ line) (rest : List Char) :
    lines (line ++ '\n' :: rest) = withoutReturn line :: lines rest := by
  induction line with
  | nil => exact lines_newline rest
  | cons c more ih =>
    obtain ⟨noFeed, inMore⟩ := not_or.mp (mt List.mem_cons.mpr inLine)
    cases more with
    | nil =>
      by_cases isReturn : c = '\r'
      · subst isReturn
        show lines ('\r' :: '\n' :: rest) = [] :: lines rest
        rw [lines]
      · have stays : withoutReturn [c] = [c] := if_neg (by simpa using isReturn)
        rw [List.singleton_append, lines_cons (Ne.symm noFeed) (absurd · isReturn),
          lines_newline, stays]
        rfl
    | cons d others =>
      have noReturn : c = '\r' → ∀ e ∈ (d :: others ++ '\n' :: rest).head?, e ≠ '\n' := by
        rintro - _ ⟨⟩ rfl
        exact inMore List.mem_cons_self
      rw [List.cons_append, lines_cons (Ne.symm noFeed) noReturn, ih inMore]
      exact congrArg (· :: lines rest) (withoutReturn_append [c] (List.cons_ne_nil d others)).symm

/-- A text without a line feed is a line, unless it is empty. -/
theorem lines_of_not_mem {line : List Char} (inLine : '\n' ∉ line) (notEmpty : line ≠ []) :
    lines line = [line] := by
  induction line with
  | nil => exact absurd rfl notEmpty
  | cons c more ih =>
    obtain ⟨noFeed, inMore⟩ := not_or.mp (mt List.mem_cons.mpr inLine)
    have noReturn : c = '\r' → ∀ d ∈ more.head?, d ≠ '\n' := by
      rintro - d ahead rfl
      exact inMore (List.mem_of_head? ahead)
    rw [lines_cons (Ne.symm noFeed) noReturn]
    cases more with
    | nil => rw [lines]; rfl
    | cons d others => rw [ih inMore (List.cons_ne_nil d others)]; rfl

/-- **The lines of a text behind a line feed come after those before it**, of which there are as
many as line feeds. -/
theorem lines_append (first second : List Char) :
    lines (first ++ '\n' :: second) = lines (first ++ ['\n']) ++ lines second ∧
      (lines (first ++ ['\n'])).length = first.count '\n' + 1 := by
  by_cases feeds : '\n' ∈ first
  · obtain ⟨line, more, split, inLine⟩ := List.eq_append_cons_of_mem feeds
    have shorter : more.length < first.length := by
      rw [split, List.length_append, List.length_cons]
      omega
    obtain ⟨parts, length⟩ := lines_append more second
    rw [split, List.append_assoc, List.append_assoc, List.cons_append, List.cons_append,
      lines_append_newline inLine, lines_append_newline inLine, parts, List.length_cons, length,
      List.count_append, List.count_cons_self, List.count_eq_zero.mpr inLine, Nat.zero_add]
    exact ⟨rfl, rfl⟩
  · rw [lines_append_newline feeds, lines_append_newline feeds, List.count_eq_zero.mpr feeds,
      lines]
    exact ⟨rfl, rfl⟩
termination_by first.length

/-! ### The line of a place -/

/-- A text is whole lines, the last of them with its line feed, and the start of a line. -/
theorem exists_lineStart (text : List Char) :
    ∃ front start, text = front ++ start ∧ '\n' ∉ start ∧
      (front = [] ∨ ∃ before, front = before ++ ['\n']) := by
  induction text with
  | nil => exact ⟨[], [], rfl, List.not_mem_nil, .inl rfl⟩
  | cons c rest ih =>
    obtain ⟨front, start, rfl, inLine, rfl | ⟨before, rfl⟩⟩ := ih
    · by_cases newline : c = '\n'
      · exact ⟨[c], start, rfl, inLine, .inr ⟨[], by rw [newline]; rfl⟩⟩
      · refine ⟨[], c :: start, rfl, ?_, .inl rfl⟩
        exact mt List.mem_cons.mp (not_or.mpr ⟨Ne.symm newline, inLine⟩)
    · exact ⟨c :: (before ++ ['\n']), start, rfl, inLine, .inr ⟨c :: before, rfl⟩⟩

/-- Behind whole lines and the start of another one, a place is at the end of that start. -/
theorem behind_lineStart {front start : List Char} (inLine : '\n' ∉ start)
    (whole : front = [] ∨ ∃ before, front = before ++ ['\n']) :
    Span.behind (front ++ start) = ⟨1 + front.count '\n', start.length⟩ := by
  have inside : ∀ c ∈ start.reverse, decide (c ≠ '\n') = true := by
    intro c member
    refine decide_eq_true ?_
    rintro rfl
    exact inLine (List.mem_reverse.mp member)
  rw [Span.behind, List.count_append, List.count_eq_zero.mpr inLine, List.reverse_append,
    List.takeWhile_append_of_pos inside]
  rcases whole with rfl | ⟨before, rfl⟩ <;> simp

/-- **The line of a place** is the first one from the start of its line on. -/
theorem exists_getElem?_lines (before behind : List Char) :
    ∃ front start, before = front ++ start ∧ '\n' ∉ start ∧
      (front = [] ∨ ∃ more, front = more ++ ['\n']) ∧
      (Span.behind before).column = start.length ∧
        (lines (before ++ behind))[(Span.behind before).line - 1]? =
          (lines (start ++ behind)).head? := by
  obtain ⟨front, start, rfl, inLine, whole⟩ := exists_lineStart before
  refine ⟨front, start, rfl, inLine, whole, ?_, ?_⟩
  · rw [behind_lineStart inLine whole]
  · rw [behind_lineStart inLine whole, Nat.add_sub_cancel_left]
    rcases whole with rfl | ⟨more, rfl⟩
    · exact List.head?_eq_getElem?.symm
    · obtain ⟨parts, length⟩ := lines_append more (start ++ behind)
      rw [List.append_assoc, List.append_assoc, List.singleton_append, parts, List.count_append,
        List.count_singleton_self, List.getElem?_append_right (Nat.le_of_eq length), length,
        Nat.sub_self]
      exact List.head?_eq_getElem?.symm

/-! ### Lexemes -/

/-- A lexeme has characters, and no blank is among them. -/
theorem Run.not_blank {behind lexeme : List Char} (isRun : Run behind lexeme) :
    lexeme ≠ [] ∧ ∀ c ∈ lexeme, isBlank c = false := by
  cases isRun with
  | word starts goesOn _ =>
    refine ⟨List.cons_ne_nil _ _, List.forall_mem_cons.mpr ⟨?_, fun d member => ?_⟩⟩
    · refine isBlank_eq_false_of_continuesWord ?_
      rw [Word.continuesWord, starts, Bool.true_or]
    · exact isBlank_eq_false_of_continuesWord (goesOn d member)
  | stray starts goesOn _ =>
    exact ⟨List.cons_ne_nil _ _,
      List.forall_mem_cons.mpr ⟨starts.1, fun d member => (goesOn d member).1⟩⟩

/-- **Every token of a text has its place before its lexeme.** -/
theorem Scan.exists_place {before text : List Char} {tokens : List Token}
    (scan : Scan before text tokens) :
    ∀ token ∈ tokens, token.isEndOfInput = false → ∃ ahead lexeme rest,
      before ++ text = ahead ++ (lexeme ++ rest) ∧ Run rest lexeme ∧
        token = Token.classify (String.ofList lexeme) (Span.behind ahead) := by
  induction scan with
  | finish =>
    intro token member isOpen
    rw [List.mem_singleton.mp member, Token.isEndOfInput_endOfInput] at isOpen
    cases isOpen
  | @token before gap lexeme rest tokens isGap isRun _ ih =>
    intro token member isOpen
    rcases List.mem_cons.mp member with rfl | inMore
    · exact ⟨before ++ gap, lexeme, rest, (List.append_assoc _ _ _).symm, isRun, rfl⟩
    · obtain ⟨ahead, found, more, split, isRun', same⟩ := ih token inMore isOpen
      refine ⟨ahead, found, more, ?_, isRun', same⟩
      rw [← split, List.append_assoc, List.append_assoc]

/-- A line keeps what a lexeme is followed by, a carriage return at its end aside. -/
theorem exists_withoutReturn (start stretch : List Char) {lexeme : List Char}
    (notEmpty : lexeme ≠ []) (noBlank : ∀ c ∈ lexeme, isBlank c = false) :
    ∃ more, withoutReturn (start ++ (lexeme ++ stretch)) = start ++ (lexeme ++ more) := by
  have unchanged : withoutReturn lexeme = lexeme := by
    refine if_neg fun last => ?_
    exact absurd (noBlank '\r' (List.mem_of_getLast? last)) (by decide)
  by_cases ends : stretch = []
  · subst ends
    refine ⟨[], ?_⟩
    rw [List.append_nil, withoutReturn_append start notEmpty, unchanged]
  · refine ⟨withoutReturn stretch, ?_⟩
    rw [← List.append_assoc, withoutReturn_append _ ends, List.append_assoc]

/-- The first line from the start of the line of a lexeme on has that lexeme behind the start. -/
theorem exists_head?_lines {start lexeme : List Char} (rest : List Char) (inLine : '\n' ∉ start)
    (notEmpty : lexeme ≠ []) (noBlank : ∀ c ∈ lexeme, isBlank c = false) :
    ∃ more, (lines (start ++ (lexeme ++ rest))).head? = some (start ++ (lexeme ++ more)) := by
  have noFeed : '\n' ∉ lexeme := fun member =>
    absurd (noBlank '\n' member) (by rw [isBlank_newline]; decide)
  by_cases feeds : '\n' ∈ rest
  · obtain ⟨stretch, below, rfl, inStretch⟩ := List.eq_append_cons_of_mem feeds
    have inWhole : '\n' ∉ start ++ (lexeme ++ stretch) := by
      simp [inLine, noFeed, inStretch]
    obtain ⟨more, line⟩ := exists_withoutReturn start stretch notEmpty noBlank
    refine ⟨more, ?_⟩
    rw [← List.append_assoc lexeme, ← List.append_assoc start, lines_append_newline inWhole,
      line]
    rfl
  · refine ⟨rest, ?_⟩
    rw [lines_of_not_mem (by simp [inLine, noFeed, feeds]) (by simp [notEmpty])]
    rfl

end Text

/-! ### Tokens and the blanks below a line -/

/-- A report picks the line that is listed. -/
theorem Text.lineAt_of_getElem? {text line : List Char} {number : Nat}
    (found : (lines text)[number - 1]? = some line) : lineAt text number = line := by
  rw [lineAt, found]
  rfl

/-- A report picks an empty line where none is listed. -/
theorem Text.lineAt_of_none {text : List Char} {number : Nat}
    (none : (lines text)[number - 1]? = none) : lineAt text number = [] := by
  rw [lineAt, none]
  rfl

/-- The line of a token has its lexeme at its column. -/
theorem exists_line_of_token {source : String} {token : Token} (member : token ∈ tokenize source)
    (isOpen : token.isEndOfInput = false) :
    ∃ line, (Text.lines source.toList)[token.span.line - 1]? = some line ∧
      token.lexeme.toList <+: line.drop token.span.column := by
  obtain ⟨ahead, lexeme, rest, split, isRun, rfl⟩ :=
    (Text.scan_segments [] source.toList).exists_place token member isOpen
  obtain ⟨notEmpty, noBlank⟩ := isRun.not_blank
  obtain ⟨front, start, -, inLine, -, column, picked⟩ :=
    Text.exists_getElem?_lines ahead (lexeme ++ rest)
  obtain ⟨more, line⟩ := Text.exists_head?_lines rest inLine notEmpty noBlank
  rw [List.nil_append] at split
  refine ⟨start ++ (lexeme ++ more), ?_, ?_⟩
  · rw [split]
    exact picked.trans line
  · show (String.ofList lexeme).toList <+: List.drop (Span.behind ahead).column _
    rw [column, List.drop_left, String.toList_ofList]
    exact List.prefix_append lexeme more

/-- A token that marks the end is the one behind the text. -/
theorem eq_mark_of_mem {source : String} {mark : Token} (member : mark ∈ tokenize source)
    (ends : mark.isEndOfInput = true) :
    mark = Token.endOfInput (Span.behind source.toList) := by
  obtain ⟨words, eq, each⟩ := (Text.scan_segments [] source.toList).exists_eq_append
  have split : tokenize source = words ++ [Token.endOfInput (Span.behind source.toList)] := eq
  rw [split] at member
  rcases List.mem_append.mp member with inside | last
  · rw [(each mark inside).1] at ends
    cases ends
  · exact List.mem_singleton.mp last

/-- Whether the last line of a text is empty and not listed. -/
def Text.EndsOnFreshLine (text : List Char) : Prop := text = [] ∨ text.getLast? = some '\n'

/-- The mark of the end stands behind the last line, or on a line that is not listed. -/
theorem line_of_mark {source : String} {mark : Token} (member : mark ∈ tokenize source)
    (ends : mark.isEndOfInput = true) :
    (Text.EndsOnFreshLine source.toList →
      mark.span.column = 0 ∧ (Text.lines source.toList)[mark.span.line - 1]? = none) ∧
    (¬ Text.EndsOnFreshLine source.toList →
      ∃ line, (Text.lines source.toList)[mark.span.line - 1]? = some line ∧
        mark.span.column = line.length) := by
  rw [eq_mark_of_mem member ends]
  obtain ⟨front, start, split, inLine, whole, column, picked⟩ :=
    Text.exists_getElem?_lines source.toList []
  rw [List.append_nil, List.append_nil] at picked
  have fresh : Text.EndsOnFreshLine source.toList ↔ start = [] := by
    rw [Text.EndsOnFreshLine, split]
    constructor
    · rintro (none | feed)
      · exact (List.append_eq_nil_iff.mp none).2
      · refine Decidable.byContradiction fun notEmpty => inLine ?_
        rw [List.getLast?_append, List.getLast?_eq_some_getLast notEmpty] at feed
        exact Option.some.inj feed ▸ List.getLast_mem notEmpty
    · rintro rfl
      rcases whole with rfl | ⟨more, rfl⟩
      · exact .inl rfl
      · exact .inr (by simp)
  rw [fresh]
  refine ⟨fun none => ?_, fun notEmpty => ⟨start, ?_, column⟩⟩
  · subst none
    rw [Text.lines] at picked
    exact ⟨column, picked⟩
  · rw [Text.lines_of_not_mem inLine notEmpty] at picked
    exact picked

/-- The line that is picked for a token has its lexeme at its column. -/
theorem lexeme_in_lineAt {source : String} {token : Token} (member : token ∈ tokenize source)
    (isOpen : token.isEndOfInput = false) :
    token.lexeme.toList <+:
      (Text.lineAt source.toList token.span.line).drop token.span.column := by
  obtain ⟨line, found, isPrefix⟩ := exists_line_of_token member isOpen
  rw [Text.lineAt_of_getElem? found]
  exact isPrefix

/-- The mark of the end is behind the line that is picked for it. -/
theorem column_of_mark {source : String} {mark : Token} (member : mark ∈ tokenize source)
    (ends : mark.isEndOfInput = true) :
    mark.span.column = (Text.lineAt source.toList mark.span.line).length := by
  obtain ⟨fresh, listed⟩ := line_of_mark member ends
  by_cases isFresh : Text.EndsOnFreshLine source.toList
  · obtain ⟨column, none⟩ := fresh isFresh
    rw [column, Text.lineAt_of_none none]
    rfl
  · obtain ⟨line, found, column⟩ := listed isFresh
    rw [column, Text.lineAt_of_getElem? found]

/-- The blanks that lead to a column are as many as it says, and tabs where the text has them. -/
theorem Report.padding_exact (text : List Char) (column : Nat) :
    (padding text column).length = column ∧ ∀ index, index < column →
      (padding text column)[index]? = some (if text[index]? = some '\t' then '\t' else ' ') := by
  have wide : ((text.take column).map fun c => if c = '\t' then '\t' else ' ').length =
      min column text.length := by
    rw [List.length_map, List.length_take]
  refine ⟨?_, fun index inside => ?_⟩
  · rw [padding, List.length_append, List.length_replicate, wide]
    omega
  · by_cases above : index < text.length
    · rw [padding, List.getElem?_append_left (by omega), List.getElem?_map,
        List.getElem?_take_of_lt inside, List.getElem?_eq_getElem above]
      simp
    · rw [padding, List.getElem?_append_right (by omega), wide, List.getElem?_replicate,
        if_pos (by omega), List.getElem?_eq_none (Nat.le_of_not_lt above)]
      rfl

/-- **The places of tokens agree with the lines that reports pick.** The line of a token is listed
and has the lexeme of the token at its column. The mark of the end stands behind the last character
of its line, or at column 0 of a line that is not listed when the text is empty or ends with a line
feed. The blanks that lead to a column are as many as it says, and tabs where the line has them. -/
theorem tokenize_places (source : String) :
    (∀ token ∈ tokenize source, token.isEndOfInput = false →
      ∃ line, (Text.lines source.toList)[token.span.line - 1]? = some line ∧
        Text.lineAt source.toList token.span.line = line ∧
          token.lexeme.toList <+: line.drop token.span.column) ∧
    (∀ mark ∈ tokenize source, mark.isEndOfInput = true →
      (Text.EndsOnFreshLine source.toList →
        mark.span.column = 0 ∧ Text.lineAt source.toList mark.span.line = []) ∧
      (¬ Text.EndsOnFreshLine source.toList →
        ∃ line, (Text.lines source.toList)[mark.span.line - 1]? = some line ∧
          Text.lineAt source.toList mark.span.line = line ∧ mark.span.column = line.length)) ∧
    ∀ (text : List Char) (column : Nat),
      (Report.padding text column).length = column ∧ ∀ index, index < column →
        (Report.padding text column)[index]? =
          some (if text[index]? = some '\t' then '\t' else ' ') := by
  refine ⟨fun token member isOpen => ?_, fun mark member ends => ?_, Report.padding_exact⟩
  · obtain ⟨line, found, isPrefix⟩ := exists_line_of_token member isOpen
    exact ⟨line, found, Text.lineAt_of_getElem? found, isPrefix⟩
  · obtain ⟨fresh, listed⟩ := line_of_mark member ends
    refine ⟨fun isFresh => ?_, fun notFresh => ?_⟩
    · obtain ⟨column, none⟩ := fresh isFresh
      exact ⟨column, Text.lineAt_of_none none⟩
    · obtain ⟨line, found, column⟩ := listed notFresh
      exact ⟨line, found, Text.lineAt_of_getElem? found, column⟩

/-- The second line has a tab before its word, and a comment that takes the carriage return in. -/
theorem tokenize_places_tab :
    tokenize "a\r\n\tb#\r" =
        [Token.classify "a" ⟨1, 0⟩, Token.classify "b" ⟨2, 1⟩, Token.endOfInput ⟨2, 4⟩] ∧
      "b".toList <+: (Text.lineAt "a\r\n\tb#\r".toList 2).drop 1 ∧
      (Text.lineAt "a\r\n\tb#\r".toList 2).length = 4 ∧
      (Report.padding (Text.lineAt "a\r\n\tb#\r".toList 2) 4)[0]? = some '\t' := by
  have tokens : tokenize "a\r\n\tb#\r" =
      [Token.classify "a" ⟨1, 0⟩, Token.classify "b" ⟨2, 1⟩, Token.endOfInput ⟨2, 4⟩] := by
    decide +kernel
  obtain ⟨words, mark, blanks⟩ := tokenize_places "a\r\n\tb#\r"
  rw [tokens] at words mark
  obtain ⟨line, -, picked, isPrefix⟩ := words (Token.classify "b" ⟨2, 1⟩)
    (by decide) (by decide)
  obtain ⟨last, -, same, column⟩ := (mark (Token.endOfInput ⟨2, 4⟩) (by decide) rfl).2
    (by rw [Text.EndsOnFreshLine]; decide +kernel)
  refine ⟨tokens, ?_, ?_, ?_⟩
  · exact picked ▸ isPrefix
  · exact (congrArg List.length same).trans column.symm
  · rw [(blanks _ 4).2 0 (by decide)]
    decide +kernel

end BlockLanguage
