/-
**A line feed starts the scan afresh.**

No segment of a text goes on behind a line feed. So the tokens of two texts with a line feed between
them are those of the first text without its mark, and then those of the second, only further down.
A comment goes on until its line ends, whatever it stands behind, so that it changes no token.

* `segments_append_newline`, `segments_append_comment`: segments before and behind a line feed, and
  with a comment behind them.
* `Segment.tokens_append`, `Segment.tokens_lower`: tokens of segments one behind the other, and
  further down.
* `tokenize_append_newline`, `lexemes_append_newline`: source texts.
* `tokenize_linewise`: source texts line by line, with and without comments.
-/

import BlockLanguage.Proofs.Tokenization

namespace BlockLanguage

/-! ### Further down -/

/-- The place so many lines further down, in the same column. -/
def Span.lower (lines : Nat) (span : Span) : Span := { span with line := span.line + lines }

/-- The token so many lines further down. -/
def Token.lower (lines : Nat) (token : Token) : Token :=
  { token with span := token.span.lower lines }

namespace Span

theorem next_lower (lines : Nat) (span : Span) (c : Char) :
    (span.lower lines).next c = (span.next c).lower lines := by
  rw [next, next]
  split
  · exact congrArg (mk · 0) (Nat.add_right_comm _ _ _)
  · rfl

theorem after_lower (lines : Nat) (span : Span) (text : List Char) :
    (span.lower lines).after text = (span.after text).lower lines := by
  induction text generalizing span with
  | nil => rfl
  | cons c rest ih => rw [after_cons, after_cons, next_lower, ih]

/-- Behind a line feed a text is at the start of a line. -/
theorem behind_newline (text : List Char) :
    behind (text ++ ['\n']) = start.lower (text.count '\n' + 1) := by
  simp [behind, lower, start]

end Span

/-! ### Segments -/

/-- A run ends before the first character that does not continue it, whatever is behind that. -/
theorem takeWhile_append_cons {p : Char → Bool} {c : Char} (stops : p c = false)
    (first second : List Char) :
    (first ++ c :: second).takeWhile p = first.takeWhile p ∧
      (first ++ c :: second).dropWhile p = first.dropWhile p ++ c :: second := by
  induction first with
  | nil => simp [stops]
  | cons d more ih =>
    rw [List.cons_append, List.takeWhile_cons, List.takeWhile_cons, List.dropWhile_cons,
      List.dropWhile_cons, ih.1, ih.2]
    cases p d <;> exact ⟨rfl, rfl⟩

theorem SegmentClass.continues_newline (kind : SegmentClass) : kind.continues '\n' = false := by
  cases kind <;> decide

/-- Only a comment goes on with a `#`. -/
theorem SegmentClass.continues_hash {kind : SegmentClass} (other : kind ≠ .comment) :
    kind.continues '#' = false := by
  cases kind with
  | comment => exact absurd rfl other
  | blank | word | stray => decide

/-- No segment goes on behind a line feed. -/
theorem segments_append_newline (first second : List Char) :
    segments (first ++ '\n' :: second) = segments first ++ ⟨'\n', []⟩ :: segments second := by
  fun_induction segments first with
  | case1 =>
    exact Segment.segments_append (List.forall_mem_nil _) fun _ _ => rfl
  | case2 c rest continues ih =>
    obtain ⟨taken, left⟩ :=
      takeWhile_append_cons (SegmentClass.continues_newline (.ofChar c)) rest second
    rw [List.cons_append, segments_cons, taken, left, ih]
    rfl

/-- A run that ends inside of a text takes nothing from what is behind the text. -/
theorem takeWhile_append_of_mem {p : Char → Bool} {c : Char} {first : List Char}
    (member : c ∈ first) (stops : p c = false) (second : List Char) :
    (first ++ second).takeWhile p = first.takeWhile p ∧
      (first ++ second).dropWhile p = first.dropWhile p ++ second := by
  obtain ⟨before, behind, rfl⟩ := List.append_of_mem member
  rw [List.append_assoc, List.cons_append, (takeWhile_append_cons stops before behind).1,
    (takeWhile_append_cons stops before behind).2, List.append_assoc]
  exact takeWhile_append_cons stops before (behind ++ second)

/-- A comment is one segment. -/
theorem segments_comment {run : List Char} (inLine : '\n' ∉ run) :
    segments ('#' :: run) = [⟨'#', run⟩] := by
  have goesOn : ∀ d ∈ run, (SegmentClass.ofChar '#').continues d = true := fun d member =>
    decide_eq_true fun newline => inLine (newline ▸ member)
  have alone := @Segment.segments_append '#' run [] goesOn fun _ ahead => nomatch ahead
  rwa [List.append_nil, segments_nil] at alone

/-- A comment behind a text without its line's end is a segment of its own, or goes on in the
comment with which the text ends. -/
theorem segments_append_comment {comment : List Char} (inLine : '\n' ∉ comment)
    (text : List Char) :
    segments (text ++ '#' :: comment) = segments text ++ [⟨'#', comment⟩] ∨
      ∃ front rest, segments text = front ++ [⟨'#', rest⟩] ∧
        segments (text ++ '#' :: comment) = front ++ [⟨'#', rest ++ '#' :: comment⟩] := by
  fun_induction segments text with
  | case1 => exact .inl (segments_comment inLine)
  | case2 c rest continues ih =>
    by_cases ahead : SegmentClass.ofChar c = .comment ∧ '\n' ∉ rest
    · obtain ⟨kind, single⟩ := ahead
      obtain rfl := SegmentClass.ofChar_eq_comment_iff.mp kind
      have both : '\n' ∉ rest ++ '#' :: comment := by simp [single, inLine]
      refine .inr ⟨[], rest, ?_, segments_comment both⟩
      rw [← segments_cons]
      exact segments_comment single
    · have cut : (rest ++ '#' :: comment).takeWhile continues = rest.takeWhile continues ∧
          (rest ++ '#' :: comment).dropWhile continues =
            rest.dropWhile continues ++ '#' :: comment := by
        by_cases newline : '\n' ∈ rest
        · exact takeWhile_append_of_mem newline (SegmentClass.continues_newline _) _
        · refine takeWhile_append_cons ?_ rest comment
          exact SegmentClass.continues_hash fun kind => ahead ⟨kind, newline⟩
      rw [List.cons_append, segments_cons, cut.1, cut.2]
      rcases ih with alone | ⟨front, last, before, behind⟩
      · exact .inl (by rw [alone, List.cons_append])
      · refine .inr ⟨⟨c, rest.takeWhile continues⟩ :: front, last, ?_, ?_⟩
        · rw [before, List.cons_append]
        · rw [behind, List.cons_append]

namespace Segment

/-- Segments further down give the same tokens further down. -/
theorem tokens_lower (lines : Nat) (span : Span) (segments : List Segment) :
    tokens (span.lower lines) segments = (tokens span segments).map (Token.lower lines) := by
  induction segments generalizing span with
  | nil => rfl
  | cons segment more ih =>
    rw [tokens, tokens, Span.after_lower, ih]
    split <;> rfl

/-- Segments one behind the other give tokens one behind the other, with one mark. -/
theorem tokens_append (span : Span) (first second : List Segment) :
    tokens span (first ++ second) =
      (tokens span first).dropLast ++ tokens (span.after (join first)) second := by
  induction first generalizing span with
  | nil => rfl
  | cons segment more ih =>
    obtain ⟨words, mark, behind, -⟩ := exists_tokens_eq (span.after segment.chars) more
    have joined : join (segment :: more) = segment.chars ++ join more := List.flatMap_cons
    rw [List.cons_append, tokens, tokens, ih, joined, Span.after_append]
    split
    · rw [behind, List.dropLast_concat, ← List.cons_append, ← List.cons_append,
        List.dropLast_concat]
    · rfl

/-- A comment gives no token, so that only the mark stands further behind. -/
theorem tokens_append_comment {comment : List Char} (inLine : '\n' ∉ comment) (span : Span)
    (text : List Char) :
    (tokens span (BlockLanguage.segments (text ++ '#' :: comment))).dropLast =
      (tokens span (BlockLanguage.segments text)).dropLast := by
  have last : ∀ (front : List Segment) (run : List Char),
      (tokens span (front ++ [⟨'#', run⟩])).dropLast = (tokens span front).dropLast := by
    intro front run
    rw [tokens_append, tokens_of_not_isLexeme _ _ _ rfl, tokens, List.dropLast_concat]
  rcases segments_append_comment inLine text with alone | ⟨front, rest, before, behind⟩
  · rw [alone, last]
  · rw [behind, before, last, last]

end Segment

/-- **A line feed starts the scan afresh**, on a line of its own. -/
theorem tokenize_append_newline (first second : String) :
    tokenize (first ++ "\n" ++ second) =
      (tokenize first).dropLast ++
        (tokenize second).map (Token.lower (first.toList.count '\n' + 1)) := by
  have split : (first ++ "\n" ++ second).toList = first.toList ++ '\n' :: second.toList := by
    rw [String.toList_append, String.toList_append, List.append_assoc]
    rfl
  have start : Span.start.after (first.toList ++ ['\n']) =
      Span.start.lower (first.toList.count '\n' + 1) :=
    (Span.after_behind [] _).trans (Span.behind_newline _)
  rw [tokenize, split, segments_append_newline, Segment.tokens_append, join_segments,
    Segment.tokens_of_not_isLexeme _ _ _ rfl, ← Span.after_append, start, Segment.tokens_lower]
  rfl

/-- A comment at the end of a line changes no token, not even its place. -/
theorem tokenize_append_comment (first second : String) {comment : String}
    (inLine : '\n' ∉ comment.toList) :
    tokenize (first ++ "#" ++ comment ++ "\n" ++ second) =
      tokenize (first ++ "\n" ++ second) := by
  have chars : (first ++ "#" ++ comment).toList = first.toList ++ '#' :: comment.toList := by
    rw [String.toList_append, String.toList_append, List.append_assoc]
    rfl
  have words : (tokenize (first ++ "#" ++ comment)).dropLast = (tokenize first).dropLast := by
    rw [tokenize, chars]
    exact Segment.tokens_append_comment inLine .start first.toList
  have newlines : (first ++ "#" ++ comment).toList.count '\n' = first.toList.count '\n' := by
    rw [chars, List.count_append, List.count_cons_of_ne (by decide),
      List.count_eq_zero_of_not_mem inLine, Nat.add_zero]
  rw [tokenize_append_newline, tokenize_append_newline, words, newlines]

theorem Token.lexemes_map_lower (lines : Nat) (tokens : List Token) :
    lexemes (tokens.map (lower lines)) = lexemes tokens := by
  rw [lexemes, lexemes, List.filter_map, List.map_map]
  rfl

/-- The lexemes of two texts with a line feed between them are those of each. -/
theorem lexemes_append_newline (first second : String) :
    Token.lexemes (tokenize (first ++ "\n" ++ second)) =
      Token.lexemes (tokenize first) ++ Token.lexemes (tokenize second) := by
  obtain ⟨words, mark, eq, -⟩ := Segment.exists_tokens_eq .start (segments first.toList)
  have none : Token.lexemes [Token.endOfInput mark] = [] := rfl
  rw [tokenize_append_newline, Token.lexemes_append, Token.lexemes_map_lower, tokenize, eq,
    List.dropLast_concat, Token.lexemes_append, none, List.append_nil]

/-- **Texts are scanned line by line.** The tokens of a text are words and then one mark. Put a line
feed and a second text behind it, and the words are followed by all tokens of the second text, which
stand further down by the lines of the first one, in the same columns. A comment before the line
feed, whatever it stands behind, changes none of these tokens and none of their places. -/
theorem tokenize_linewise (first second : String) :
    (∃ words mark, tokenize first = words ++ [Token.endOfInput mark] ∧
      (∀ word ∈ words, word.isEndOfInput = false) ∧
      tokenize (first ++ "\n" ++ second) =
        words ++ (tokenize second).map (Token.lower (first.toList.count '\n' + 1))) ∧
    ∀ comment : String, '\n' ∉ comment.toList →
      tokenize (first ++ "#" ++ comment ++ "\n" ++ second) =
        tokenize (first ++ "\n" ++ second) := by
  refine ⟨?_, fun comment inLine => tokenize_append_comment first second inLine⟩
  obtain ⟨words, mark, eq, each, -⟩ := Segment.exists_tokens_eq .start (segments first.toList)
  refine ⟨words, mark, eq, fun word member => (each word member).2, ?_⟩
  rw [tokenize_append_newline, tokenize, eq, List.dropLast_concat]

/-- The first text ends in an open comment, which the `#` of the second comment does not end. -/
theorem tokenize_linewise_open_comment :
    '\n' ∉ " #\r".toList ∧
      tokenize ("a\n-b#c" ++ "#" ++ " #\r" ++ "\n" ++ "\td") =
        tokenize ("a\n-b#c" ++ "\n" ++ "\td") ∧
      tokenize ("a\n-b#c" ++ "\n" ++ "\td") =
        [Token.classify "a" ⟨1, 0⟩, Token.classify "-" ⟨2, 0⟩, Token.classify "b" ⟨2, 1⟩,
          Token.classify "d" ⟨3, 1⟩, Token.endOfInput ⟨3, 2⟩] := by
  have inLine : '\n' ∉ " #\r".toList := by decide
  exact ⟨inLine, (tokenize_linewise "a\n-b#c" "\td").2 " #\r" inLine, by decide +kernel⟩

end BlockLanguage
