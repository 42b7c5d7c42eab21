/-
**A source text is gaps and lexemes.**

Between the lexemes of a source text, before the first and behind the last of them stand gaps: runs
of blanks and comments. A lexeme is a run of letters, digits and `-` that begins with a letter or a
digit, or a run of characters that stand in no gap and are neither letters nor digits; it ends where
its class does. The tokens are these lexemes, each at its place, and then one mark at the place
behind the text. There is only one way to see a text so.

* `Gap`, `Run`, `Scan`: gaps, lexemes, and what a text consists of, said without the scanner.
* `after_start`: places are counts of characters.
* `scan_segments`, `Scan.eq_tokens`: the segments of a text are gaps and lexemes, and the only ones.
* `tokenize_exact`: the tokens of a source text.
-/

import BlockLanguage.Proofs.Scanning

namespace BlockLanguage

/-- The place behind a text: its line is one more than the line feeds of the text, its column the
number of characters since the last of them. -/
def Span.behind (text : List Char) : Span :=
  ⟨1 + text.count '\n', (text.reverse.takeWhile (· ≠ '\n')).length⟩

namespace Text

/-- A run of blanks and comments directly before what is behind it. A comment goes on up to a line
feed, or to the end of the text. -/
inductive Gap (behind : List Char) : List Char → Prop
  | nil : Gap behind []
  | blank {c : Char} {rest : List Char} (isBlank : isBlank c = true) (more : Gap behind rest) :
    Gap behind (c :: rest)
  | comment {body rest : List Char} (inLine : '\n' ∉ body)
      (ends : ∀ c ∈ (rest ++ behind).head?, c = '\n') (more : Gap behind rest) :
    Gap behind ('#' :: (body ++ rest))

/-- A character that stands in no gap and is neither a letter nor a digit. -/
def IsStray (c : Char) : Prop := isBlank c = false ∧ c ≠ '#' ∧ c.isAlphanum = false

instance (c : Char) : Decidable (IsStray c) :=
  inferInstanceAs (Decidable (isBlank c = false ∧ c ≠ '#' ∧ c.isAlphanum = false))

/-- What holds of the first character of a text holds of what the text begins with. -/
theorem forall_head? {check : Char → Prop} {c : Char} {rest : List Char} (holds : check c) :
    ∀ d ∈ (c :: rest).head?, check d := by
  rintro _ ⟨⟩
  exact holds

/-- A run of characters that is a lexeme directly before what is behind it. -/
inductive Run (behind : List Char) : List Char → Prop
  | word {c : Char} {rest : List Char} (starts : c.isAlphanum = true)
      (goesOn : ∀ d ∈ rest, Word.continuesWord d = true)
      (ends : ∀ d ∈ behind.head?, Word.continuesWord d = false) : Run behind (c :: rest)
  | stray {c : Char} {rest : List Char} (starts : IsStray c) (goesOn : ∀ d ∈ rest, IsStray d)
      (ends : ∀ d ∈ behind.head?, ¬ IsStray d) : Run behind (c :: rest)

/-- The tokens of the rest of a text behind a part of it: a gap and a lexeme give a token at the
place of the lexeme, a last gap gives the mark at the place behind the text. -/
inductive Scan : (before text : List Char) → List Token → Prop
  | finish {before gap : List Char} (isGap : Gap [] gap) :
    Scan before gap [Token.endOfInput (Span.behind (before ++ gap))]
  | token {before gap lexeme rest : List Char} {tokens : List Token}
      (isGap : Gap (lexeme ++ rest) gap) (isRun : Run rest lexeme)
      (more : Scan (before ++ gap ++ lexeme) rest tokens) :
    Scan before (gap ++ (lexeme ++ rest))
      (Token.classify (String.ofList lexeme) (Span.behind (before ++ gap)) :: tokens)

end Text

/-! ### Places -/

namespace Span

theorem next_behind (before : List Char) (c : Char) :
    (behind before).next c = behind (before ++ [c]) := by
  rw [behind, behind, List.count_append, List.reverse_append, List.reverse_singleton,
    List.singleton_append, next]
  by_cases newline : c = '\n'
  · subst newline
    simp [Nat.add_assoc]
  · rw [if_neg newline, List.takeWhile_cons_of_pos (by simpa using newline)]
    simp [newline]

/-- Reading on from the place behind a text leads to the place behind more of it. -/
theorem after_behind (before text : List Char) :
    (behind before).after text = behind (before ++ text) := by
  induction text generalizing before with
  | nil => rw [after_nil, List.append_nil]
  | cons c rest ih => rw [after_cons, next_behind, ih, List.append_assoc, List.singleton_append]

end Span

/-! ### The classes of characters -/

namespace SegmentClass

variable {c : Char}

theorem ofChar_eq_blank_iff : ofChar c = .blank ↔ Text.isBlank c = true := by
  unfold ofChar
  grind

theorem ofChar_eq_comment_iff : ofChar c = .comment ↔ c = '#' := by
  constructor
  · intro comment
    unfold ofChar at comment
    grind
  · rintro rfl
    decide

theorem ofChar_eq_word_iff : ofChar c = .word ↔ c.isAlphanum = true := by
  constructor
  · intro word
    unfold ofChar at word
    grind
  · intro alphanum
    have continues : Word.continuesWord c = true := by
      rw [Word.continuesWord, alphanum, Bool.true_or]
    have noComment : c ≠ '#' := by
      rintro rfl
      exact absurd alphanum (by decide)
    rw [ofChar, Text.isBlank_eq_false_of_continuesWord continues, if_neg Bool.false_ne_true,
      if_neg noComment, if_pos alphanum]

theorem ofChar_eq_stray_iff : ofChar c = .stray ↔ Text.IsStray c := by
  unfold ofChar Text.IsStray
  grind

end SegmentClass

/-! ### The first segment of a text -/

/-- The longest run of characters of a kind, and what is behind it. -/
theorem takeWhile_of_run {p : Char → Bool} {run rest : List Char} (inside : ∀ c ∈ run, p c = true)
    (ends : ∀ c ∈ rest.head?, p c = false) :
    (run ++ rest).takeWhile p = run ∧ (run ++ rest).dropWhile p = rest := by
  rw [List.takeWhile_append_of_pos inside, List.dropWhile_append_of_pos inside]
  cases rest with
  | nil => simp
  | cons c more =>
    have stops : ¬ p c = true := by simp [ends c rfl]
    rw [List.takeWhile_cons_of_neg stops, List.dropWhile_cons_of_neg stops, List.append_nil]
    exact ⟨rfl, rfl⟩

namespace Segment

/-- A segment in front of a text that begins with characters of its class and none behind them. -/
theorem segments_append {c : Char} {run rest : List Char}
    (inside : ∀ d ∈ run, (SegmentClass.ofChar c).continues d = true)
    (ends : ∀ d ∈ rest.head?, (SegmentClass.ofChar c).continues d = false) :
    segments (c :: (run ++ rest)) = ⟨c, run⟩ :: segments rest := by
  obtain ⟨taken, left⟩ := takeWhile_of_run inside ends
  rw [segments_cons, taken, left]

variable {c : Char} (run : List Char) (span : Span) (more : List Segment)

/-- A segment that is no lexeme only moves the place. -/
theorem tokens_of_not_isLexeme (gap : (SegmentClass.ofChar c).isLexeme = false) :
    tokens span (⟨c, run⟩ :: more) = tokens (span.after (c :: run)) more := by
  rw [tokens, kind, gap]
  rfl

/-- A segment that is a lexeme gives a token. -/
theorem tokens_of_isLexeme (lexeme : (SegmentClass.ofChar c).isLexeme = true) :
    tokens span (⟨c, run⟩ :: more) =
      Token.classify (String.ofList (c :: run)) span :: tokens (span.after (c :: run)) more := by
  rw [tokens, kind, lexeme]
  rfl

end Segment

namespace Text

open Segment

variable {before behind gap lexeme rest text : List Char} {tokens : List Token}

/-! ### Gaps and lexemes are segments -/

/-- The scanner passes a gap, and no token comes of it. -/
theorem Gap.tokens_eq (isGap : Gap behind gap) (before : List Char) :
    Segment.tokens (Span.behind before) (segments (gap ++ behind)) =
      Segment.tokens (Span.behind (before ++ gap)) (segments behind) := by
  induction isGap generalizing before with
  | nil => rw [List.nil_append, List.append_nil]
  | @blank c rest isBlank _ ih =>
    have kind : SegmentClass.ofChar c = .blank := SegmentClass.ofChar_eq_blank_iff.mpr isBlank
    have first : segments (c :: (rest ++ behind)) = ⟨c, []⟩ :: segments (rest ++ behind) :=
      @segments_append c [] _ (List.forall_mem_nil _) fun d _ => by rw [kind]; rfl
    rw [List.cons_append, first, tokens_of_not_isLexeme _ _ _ (by rw [kind]; rfl),
      Span.after_behind, ih, List.append_assoc]
    rfl
  | @comment body rest inLine ends _ ih =>
    have kind : SegmentClass.ofChar '#' = .comment := SegmentClass.ofChar_eq_comment_iff.mpr rfl
    have first : segments ('#' :: (body ++ (rest ++ behind))) =
        ⟨'#', body⟩ :: segments (rest ++ behind) := by
      refine segments_append (fun d member => ?_) fun d ahead => ?_
      · rw [kind]
        exact decide_eq_true fun newline => inLine (newline ▸ member)
      · rw [kind, ends d ahead]
        rfl
    rw [List.cons_append, List.append_assoc, first,
      tokens_of_not_isLexeme _ _ _ (by rw [kind]; rfl), Span.after_behind, ih, List.append_assoc]
    rfl

/-- A lexeme is what its first character begins and the scanner would take. -/
theorem run_cons_iff {c : Char} :
    Run behind (c :: rest) ↔ (SegmentClass.ofChar c).isLexeme = true ∧
      (∀ d ∈ rest, (SegmentClass.ofChar c).continues d = true) ∧
      ∀ d ∈ behind.head?, (SegmentClass.ofChar c).continues d = false := by
  constructor
  · rintro (⟨starts, goesOn, ends⟩ | ⟨starts, goesOn, ends⟩)
    · rw [SegmentClass.ofChar_eq_word_iff.mpr starts]
      exact ⟨rfl, goesOn, ends⟩
    · rw [SegmentClass.ofChar_eq_stray_iff.mpr starts]
      refine ⟨rfl, fun d member => ?_, fun d ahead => ?_⟩
      · exact decide_eq_true (SegmentClass.ofChar_eq_stray_iff.mpr (goesOn d member))
      · exact decide_eq_false fun stray => ends d ahead (SegmentClass.ofChar_eq_stray_iff.mp stray)
  · rintro ⟨isLexeme, goesOn, ends⟩
    cases kind : SegmentClass.ofChar c with
    | blank =>
      rw [kind] at isLexeme
      cases isLexeme
    | comment =>
      rw [kind] at isLexeme
      cases isLexeme
    | word =>
      rw [kind] at goesOn ends
      exact .word (SegmentClass.ofChar_eq_word_iff.mp kind) goesOn ends
    | stray =>
      rw [kind] at goesOn ends
      refine .stray (SegmentClass.ofChar_eq_stray_iff.mp kind) (fun d member => ?_)
        fun d ahead stray => ?_
      · exact SegmentClass.ofChar_eq_stray_iff.mp (of_decide_eq_true (goesOn d member))
      · exact of_decide_eq_false (ends d ahead) (SegmentClass.ofChar_eq_stray_iff.mpr stray)

/-- **Nothing but the tokens of its segments can be seen in a text.** -/
theorem Scan.eq_tokens (scan : Scan before text tokens) :
    tokens = Segment.tokens (Span.behind before) (segments text) := by
  induction scan with
  | @finish before gap isGap =>
    have passed := isGap.tokens_eq before
    rw [List.append_nil, segments_nil] at passed
    exact passed.symm
  | @token before gap lexeme rest tokens isGap isRun _ ih =>
    cases lexeme with
    | nil => cases isRun
    | cons c run =>
      obtain ⟨isLexeme, goesOn, ends⟩ := run_cons_iff.mp isRun
      have first : segments (c :: run ++ rest) = ⟨c, run⟩ :: segments rest :=
        segments_append goesOn ends
      rw [isGap.tokens_eq, first, tokens_of_isLexeme _ _ _ isLexeme, Span.after_behind, ih]

/-! ### Segments are gaps and lexemes -/

/-- What may stand in front of a gap may stand in front of a text, and no token comes of it. -/
theorem Scan.prepend {front : List Char} (scan : Scan (before ++ front) text tokens)
    (joins : ∀ gap behind, text = gap ++ behind → Gap behind gap → Gap behind (front ++ gap)) :
    Scan before (front ++ text) tokens := by
  cases scan with
  | finish isGap =>
    rw [List.append_assoc]
    exact .finish (joins text [] (List.append_nil text).symm isGap)
  | @token _ gap lexeme rest tokens isGap isRun more =>
    rw [List.append_assoc before, ← List.append_assoc front]
    refine .token (joins gap (lexeme ++ rest) rfl isGap) isRun ?_
    rw [← List.append_assoc before]
    exact more

/-- A segment that is no lexeme may stand in front of a gap. -/
theorem Gap.cons {c : Char} {run : List Char} (isGap : Gap behind gap)
    (noLexeme : (SegmentClass.ofChar c).isLexeme = false)
    (goesOn : ∀ d ∈ run, (SegmentClass.ofChar c).continues d = true)
    (ends : ∀ d ∈ (gap ++ behind).head?, (SegmentClass.ofChar c).continues d = false) :
    Gap behind (c :: run ++ gap) := by
  cases kind : SegmentClass.ofChar c with
  | blank =>
    rw [kind] at goesOn
    have none : run = [] := List.eq_nil_iff_forall_not_mem.mpr fun d member =>
      Bool.false_ne_true (goesOn d member)
    rw [none]
    exact .blank (SegmentClass.ofChar_eq_blank_iff.mp kind) isGap
  | comment =>
    rw [kind] at goesOn ends
    have hash := SegmentClass.ofChar_eq_comment_iff.mp kind
    subst hash
    refine .comment (fun newline => ?_) (fun d ahead => ?_) isGap
    · exact absurd (goesOn '\n' newline) (by decide)
    · exact Decidable.of_not_not (of_decide_eq_false (ends d ahead))
  | word =>
    rw [kind] at noLexeme
    cases noLexeme
  | stray =>
    rw [kind] at noLexeme
    cases noLexeme

/-- **The segments of a text are gaps and lexemes.** -/
theorem scan_segments (before text : List Char) :
    Scan before text (Segment.tokens (Span.behind before) (segments text)) := by
  induction text using segments.induct generalizing before with
  | case1 =>
    have finish : Scan before [] [Token.endOfInput (Span.behind (before ++ []))] := .finish .nil
    rw [List.append_nil] at finish
    rw [segments_nil]
    exact finish
  | case2 c rest continues ih =>
    have goesOn : ∀ d ∈ rest.takeWhile continues, continues d = true :=
      List.all_eq_true.mp List.all_takeWhile
    have ends : ∀ d ∈ (rest.dropWhile continues).head?, continues d = false := by
      intro d ahead
      have stops := List.head?_dropWhile_not continues rest
      rw [ahead] at stops
      exact stops
    have parts : c :: rest = c :: rest.takeWhile continues ++ rest.dropWhile continues := by
      rw [List.cons_append, List.takeWhile_append_dropWhile]
    have more := ih (before ++ c :: rest.takeWhile continues)
    rw [segments_cons, parts]
    by_cases isLexeme : (SegmentClass.ofChar c).isLexeme = true
    · rw [tokens_of_isLexeme _ _ _ isLexeme, Span.after_behind]
      have isRun := run_cons_iff.mpr ⟨isLexeme, goesOn, ends⟩
      have token := @Scan.token before [] _ _ _ .nil isRun (by rw [List.append_nil]; exact more)
      rw [List.append_nil] at token
      exact token
    · have noLexeme := eq_false_of_ne_true isLexeme
      rw [tokens_of_not_isLexeme _ _ _ noLexeme, Span.after_behind]
      refine more.prepend fun gap behind split isGap => isGap.cons noLexeme goesOn ?_
      rw [← split]
      exact ends

end Text

/-! ### The kinds of lexemes -/

theorem Word.isWord_of_isKeyword {text : String} (keyword : isKeyword text = true) :
    isWord text = true :=
  isWord_of_keyword (List.contains_iff_mem.mp keyword)

theorem Word.isWord_of_isCondition {text : String} (condition : isCondition text = true) :
    isWord text = true := by
  obtain ⟨found, spelled⟩ := Option.isSome_iff_exists.mp condition
  rw [← Condition.ofText?_eq_some_iff.mp spelled]
  exact found.isWord_text

/-- A lexeme is an error exactly if it is no word, that of the mark aside. -/
theorem TokenKind.ofLexeme_eq_error_iff {lexeme : String} :
    ofLexeme lexeme = .error ↔ Word.isWord lexeme = false ∧ lexeme ≠ endOfInputLexeme := by
  by_cases mark : lexeme = endOfInputLexeme
  · simp [ofLexeme, mark]
  · cases word : Word.isWord lexeme with
    | false =>
      have noKeyword : ¬ Word.isKeyword lexeme = true := fun keyword => by
        rw [Word.isWord_of_isKeyword keyword] at word
        cases word
      have noCondition : ¬ Word.isCondition lexeme = true := fun condition => by
        rw [Word.isWord_of_isCondition condition] at word
        cases word
      simp [ofLexeme, mark, noKeyword, noCondition, Word.isIdentifier, word]
    | true =>
      cases keyword : Word.isKeyword lexeme <;> cases condition : Word.isCondition lexeme <;>
        simp [ofLexeme, mark, keyword, condition, Word.isIdentifier, word]

namespace Text

variable {before behind lexeme text : List Char} {tokens : List Token}

/-- A lexeme of a text is a word exactly if it begins with a letter. -/
theorem Run.isWord_iff (isRun : Run behind lexeme) :
    Word.isWord (String.ofList lexeme) = true ↔ ∃ c ∈ lexeme.head?, c.isAlpha = true := by
  rw [Word.isWord, String.toList_ofList]
  cases isRun with
  | @word c rest _ goesOn _ => simp [Word.isWordShaped, List.all_eq_true.mpr goesOn]
  | @stray c rest starts _ _ =>
    have noLetter : c.isAlpha = false := by
      have none := starts.2.2
      rw [Char.isAlphanum, Bool.or_eq_false_iff] at none
      exact none.1
    simp [Word.isWordShaped, noLetter]

/-- No lexeme of a text is that of the mark, which begins like a comment. -/
theorem Run.ne_endOfInputLexeme (isRun : Run behind lexeme) :
    String.ofList lexeme ≠ endOfInputLexeme := by
  intro same
  have chars : lexeme = endOfInputLexeme.toList := by rw [← same, String.toList_ofList]
  rw [chars] at isRun
  cases isRun with
  | word starts _ _ => exact absurd starts (by decide)
  | stray starts _ _ => exact starts.2.1 rfl

/-- The tokens of a text are those of its lexemes and then one mark behind the text. -/
theorem Scan.exists_eq_append (scan : Scan before text tokens) :
    ∃ words, tokens = words ++ [Token.endOfInput (Span.behind (before ++ text))] ∧
      ∀ token ∈ words, token.isEndOfInput = false ∧
        (token.kind = .error ↔ ∀ c ∈ token.lexeme.toList.head?, c.isAlpha = false) := by
  induction scan with
  | finish => exact ⟨[], rfl, List.forall_mem_nil _⟩
  | @token before gap lexeme rest tokens _ isRun _ ih =>
    obtain ⟨words, rfl, each⟩ := ih
    refine ⟨Token.classify (String.ofList lexeme) (Span.behind (before ++ gap)) :: words, ?_,
      List.forall_mem_cons.mpr ⟨⟨?_, ?_⟩, each⟩⟩
    · simp only [List.append_assoc, List.cons_append]
    · rw [Token.isEndOfInput, decide_eq_false_iff_not]
      exact fun marks =>
        isRun.ne_endOfInputLexeme (TokenKind.ofLexeme_eq_endOfInput_iff.mp marks)
    · show TokenKind.ofLexeme (String.ofList lexeme) = .error ↔
        ∀ c ∈ (String.ofList lexeme).toList.head?, c.isAlpha = false
      rw [TokenKind.ofLexeme_eq_error_iff, ← Bool.not_eq_true, isRun.isWord_iff,
        String.toList_ofList]
      simp [isRun.ne_endOfInputLexeme]

end Text

/-- **The tokens of a source text.** They are the lexemes between its gaps, each at its place, and
the mark at the place behind the text; no other tokens are. Those before the mark mark no end, and
are errors exactly if they do not begin with a letter. -/
theorem tokenize_exact (source : String) :
    (∀ tokens, Text.Scan [] source.toList tokens ↔ tokens = tokenize source) ∧
    ∃ tokens, tokenize source = tokens ++ [Token.endOfInput (Span.behind source.toList)] ∧
      ∀ token ∈ tokens, token.isEndOfInput = false ∧
        (token.kind = .error ↔ ∀ c ∈ token.lexeme.toList.head?, c.isAlpha = false) := by
  have scan : Text.Scan [] source.toList (tokenize source) := Text.scan_segments [] source.toList
  refine ⟨fun tokens => ⟨fun other => other.eq_tokens, ?_⟩, scan.exists_eq_append⟩
  rintro rfl
  exact scan

/-- A comment ends a word, and behind it a `-` before a digit and what begins with the digit are two
errors. -/
theorem tokenize_exact_comment :
    tokenize "a# b\n-2c" = [Token.classify "a" ⟨1, 0⟩, Token.classify "-" ⟨2, 0⟩,
        Token.classify "2c" ⟨2, 1⟩, Token.endOfInput ⟨2, 3⟩] ∧
      (Token.classify "2c" ⟨2, 1⟩).kind = .error := by
  have spelled : "a# b\n-2c".toList = [] ++ (['a'] ++
      ('#' :: ([' ', 'b'] ++ ['\n']) ++ (['-'] ++ ([] ++ (['2', 'c'] ++ []))))) := by
    decide +kernel
  have scan : Text.Scan [] "a# b\n-2c".toList [Token.classify "a" ⟨1, 0⟩,
      Token.classify "-" ⟨2, 0⟩, Token.classify "2c" ⟨2, 1⟩, Token.endOfInput ⟨2, 3⟩] := by
    rw [spelled]
    refine .token .nil
      (.word (by decide) (List.forall_mem_nil _) (Text.forall_head? (by decide))) ?_
    refine .token (.comment (by decide) (Text.forall_head? rfl) (.blank (by decide) .nil))
      (.stray (by decide) (List.forall_mem_nil _) (Text.forall_head? (by decide))) ?_
    exact .token .nil (.word (by decide) (List.forall_mem_singleton.mpr (by decide)) nofun)
      (.finish .nil)
  have tokens := ((tokenize_exact "a# b\n-2c").1 _).mp scan
  obtain ⟨words, split, each⟩ := (tokenize_exact "a# b\n-2c").2
  have inside : Token.classify "2c" ⟨2, 1⟩ ∈
      words ++ [Token.endOfInput (Span.behind "a# b\n-2c".toList)] := by
    rw [← split, ← tokens]
    decide
  rcases List.mem_append.mp inside with word | mark
  · exact ⟨tokens.symm, (each _ word).2.mpr (Text.forall_head? (by decide))⟩
  · exact absurd (congrArg Token.lexeme (List.mem_singleton.mp mark)) (by decide)

end BlockLanguage
