/-
**Parsing whole inputs.**

A parse reads a statement, a block or a program from all tokens of an input, or from the tokens of a
source text, and ends in what it read or in the first error.
-/

import BlockLanguage.Grammar.Program
import BlockLanguage.Layout
import BlockLanguage.Options.Reader
import BlockLanguage.Token.Segment

namespace BlockLanguage

/-- What a rule reads from the front of a token list. -/
def Rule.parse {α : Type} (rule : Rule α) (tokens : List Token) : Except ParseError α :=
  match rule.run (Cursor.ofTokens tokens) with
  | .error stop => .error stop.error
  | .ok (value, _) => .ok value

/-- The statement that tokens spell. -/
def Statement.parse (options : Options) (tokens : List Token) : Except ParseError Statement :=
  (Grammar.whole (Grammar.statement options.maxNestingDepth)).parse tokens

/-- The block that tokens spell. -/
def Block.parse (options : Options) (tokens : List Token) : Except ParseError Block :=
  (Grammar.whole (Grammar.block options.maxNestingDepth)).parse tokens

/-- The program that tokens spell. -/
def Program.parse (options : Options) (tokens : List Token) : Except ParseError Program :=
  (Grammar.program options.maxNestingDepth).parse tokens

/-- What a fragment is parsed as. -/
inductive Fragment.Form
  | statement
  | block
  deriving DecidableEq

/-- The fragment of a form that tokens spell. -/
def Fragment.parse (form : Form) (options : Options) (tokens : List Token) :
    Except ParseError Fragment :=
  match form with
  | .statement => (Statement.parse options tokens).map .statement
  | .block => (Block.parse options tokens).map .block

/-- Reads the printed form of a fragment as a block. -/
def Fragment.reparse (fragment : Fragment) : Except ParseError Block :=
  Block.parse {} (tokenize fragment.text)

/-- Reads the printed form of a program. -/
def Program.reparse (program : Program) : Except ParseError Program :=
  Program.parse {} (tokenize program.text)

end BlockLanguage
