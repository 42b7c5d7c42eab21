/-
**Cutting a source text into segments and tokens.**

The characters with the Unicode property White_Space are blank. A segment is a blank, a comment, or
a lexeme. Its first character decides which: a blank stands alone, a `#` takes the rest of its line,
an ASCII letter or digit takes the letters, digits and `-` behind it, and anything else takes what
could begin no other segment. Every segment extends as far to the right as its class allows.

Each segment is given the place where it begins, and the lexemes among them become tokens of the
kind that their text has. A last token marks the end of the input at the place behind the text.
Scanning refuses no text: a run of characters that is no word becomes a token of kind `error`.

* `join_segments`: nothing is lost, the segments put together are the text.
* `segments_cons`: how the first segment of a text that is not empty is cut off.
* `tokenize`: the tokens of a source text.
-/

import BlockLanguage.Token

namespace BlockLanguage

namespace Text

/-- The code points with the property White_Space, as closed ranges. -/
def blankRanges : List (Nat × Nat) :=
  [(0x0009, 0x000D), (0x0020, 0x0020), (0x0085, 0x0085), (0x00A0, 0x00A0), (0x1680, 0x1680),
   (0x2000, 0x200A), (0x2028, 0x2029), (0x202F, 0x202F), (0x205F, 0x205F), (0x3000, 0x3000)]

/-- Whether a character separates words without being part of one. -/
def isBlank (c : Char) : Bool :=
  blankRanges.any fun range => range.1 ≤ c.toNat && c.toNat ≤ range.2

/-- A line feed is blank. -/
theorem isBlank_newline : isBlank '\n' = true := by decide

end Text

/-! ### Segments -/

/-- What a segment is, by its first character. -/
inductive SegmentClass
  | blank
  | comment
  | word
  | stray
  deriving DecidableEq

namespace SegmentClass

/-- The class of the segment that a character begins. -/
def ofChar (c : Char) : SegmentClass :=
  if Text.isBlank c then .blank
  else if c = '#' then .comment
  else if c.isAlphanum then .word
  else .stray

/-- Whether a character behind a segment of a class still belongs to the segment. -/
def continues : SegmentClass → Char → Bool
  | blank, _ => false
  | comment, c => c ≠ '\n'
  | word, c => Word.continuesWord c
  | stray, c => ofChar c = .stray

/-- Whether a segment of this class is a lexeme; blanks and comments are not. -/
def isLexeme : SegmentClass → Bool
  | blank | comment => false
  | word | stray => true

end SegmentClass

/-- A run of characters of a source text that belong together. -/
structure Segment where
  first : Char
  rest : List Char
  deriving DecidableEq

namespace Segment

/-- The class of a segment. -/
def kind (segment : Segment) : SegmentClass := .ofChar segment.first

/-- The characters of a segment. -/
def chars (segment : Segment) : List Char := segment.first :: segment.rest

/-- The text of a segment. -/
def text (segment : Segment) : String := String.ofList segment.chars

/-- The text that segments make up. -/
def join (segments : List Segment) : List Char := segments.flatMap chars

end Segment

private theorem length_dropWhile_le (p : Char → Bool) (text : List Char) :
    (text.dropWhile p).length ≤ text.length :=
  (List.dropWhile_sublist p).length_le

/-- The segments of a text. -/
def segments : List Char → List Segment
  | [] => []
  | c :: rest =>
    let continues := (SegmentClass.ofChar c).continues
    ⟨c, rest.takeWhile continues⟩ :: segments (rest.dropWhile continues)
termination_by text => text.length
decreasing_by exact Nat.lt_succ_of_le (length_dropWhile_le _ _)

@[simp] theorem segments_nil : segments [] = [] := by rw [segments]

/-- The first segment of a text takes all characters that continue it. -/
theorem segments_cons (c : Char) (rest : List Char) :
    segments (c :: rest) =
      ⟨c, rest.takeWhile (SegmentClass.ofChar c).continues⟩ ::
        segments (rest.dropWhile (SegmentClass.ofChar c).continues) := by
  rw [segments]

/-- The segments of a text, put together, are the text. -/
theorem join_segments (text : List Char) : Segment.join (segments text) = text := by
  fun_induction segments text with
  | case1 => rfl
  | case2 c rest continues ih =>
    rw [Segment.join, List.flatMap_cons]
    rw [Segment.join] at ih
    rw [ih]
    simp [Segment.chars]

/-! ### Tokens -/

/-- The tokens of segments that begin at a place, then the mark of the end. -/
def Segment.tokens (span : Span) : List Segment → List Token
  | [] => [Token.endOfInput span]
  | segment :: more =>
    let following := tokens (span.after segment.chars) more
    if segment.kind.isLexeme then Token.classify segment.text span :: following else following

/-- The tokens of a source text. -/
def tokenize (source : String) : List Token := Segment.tokens .start (segments source.toList)

end BlockLanguage
