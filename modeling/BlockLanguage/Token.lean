/-
**Places and tokens.**

A place in a source text is a line, counted from one, and a column, counted from zero in characters.
Reading a character moves the place: a line feed to the start of the next line, any other character
one column on.

A token is a lexeme, its kind and the place where it begins. `classify` gives the kind that a lexeme
has by itself; a token list may also hold tokens whose kind says something else. One lexeme, which
no source text contains as a word, marks the end of the input.
-/

import BlockLanguage.Word

namespace BlockLanguage

/-- A place in a source text. -/
structure Span where
  line : Nat
  column : Nat
  deriving DecidableEq, Inhabited

namespace Span

/-- The place of the first character of a text. -/
def start : Span := ⟨1, 0⟩

/-- The place in no text at all. -/
def nowhere : Span := ⟨0, 0⟩

/-- The place behind a character that stands at a given place. -/
def next (span : Span) (c : Char) : Span :=
  if c = '\n' then ⟨span.line + 1, 0⟩ else ⟨span.line, span.column + 1⟩

/-- The place behind a run of characters that begins at a given place. -/
def after (span : Span) (text : List Char) : Span := text.foldl next span

@[simp] theorem after_nil (span : Span) : span.after [] = span := rfl

@[simp] theorem after_cons (span : Span) (c : Char) (text : List Char) :
    span.after (c :: text) = (span.next c).after text := rfl

/-- Two runs, one behind the other. -/
theorem after_append (span : Span) (first second : List Char) :
    span.after (first ++ second) = (span.after first).after second :=
  List.foldl_append

end Span

/-- What a token is. -/
inductive TokenKind
  | keyword
  | condition
  | identifier
  | error
  | endOfInput
  deriving DecidableEq

/-- A lexeme with its kind and the place of its first character. -/
structure Token where
  kind : TokenKind
  lexeme : String
  span : Span
  deriving DecidableEq

/-- The lexeme that marks the end of the input. -/
def endOfInputLexeme : String := "### END OF INPUT ###"

/-- The kind that a lexeme has by itself; what is no word is an error. -/
def TokenKind.ofLexeme (lexeme : String) : TokenKind :=
  if lexeme = endOfInputLexeme then .endOfInput
  else if Word.isKeyword lexeme then .keyword
  else if Word.isCondition lexeme then .condition
  else if Word.isIdentifier lexeme then .identifier
  else .error

namespace Token

/-- The token of a lexeme, of the kind that the lexeme has by itself. -/
def classify (lexeme : String) (span : Span) : Token := ⟨.ofLexeme lexeme, lexeme, span⟩

/-- The token that marks the end of the input. -/
def endOfInput (span : Span) : Token := ⟨.endOfInput, endOfInputLexeme, span⟩

/-- Whether a token marks the end of the input; only its kind counts. -/
def isEndOfInput (token : Token) : Bool := token.kind = .endOfInput

/-- The wording of a token in a message to its writer. -/
def text (token : Token) : String :=
  if token.isEndOfInput then "end of input" else token.lexeme

/-- Tokens for bare lexemes, all on line one, with their index as the column. -/
def ofLexemes (lexemes : List String) : List Token :=
  lexemes.mapIdx fun index lexeme => classify lexeme ⟨1, index⟩

@[simp] theorem isEndOfInput_endOfInput (span : Span) : (endOfInput span).isEndOfInput = true := by
  simp [isEndOfInput, endOfInput]

end Token

end BlockLanguage
