/-
**The printed form of statements and programs.**

A printed text is a list of lines, each a number of leading spaces and the words behind them. The
parts of an IF or WHILE stand at its own indentation and its blocks two columns further in; a block
prints its statements one after another where it stands.
-/

import BlockLanguage.Program

namespace BlockLanguage

/-- A line of a printed text; a line without words is blank. -/
structure Line where
  indent : Nat
  words : List String
  deriving DecidableEq

namespace Line

/-- The characters of a line, with the line feed that ends it. -/
def text (line : Line) : String :=
  String.ofList (List.replicate line.indent ' ') ++ " ".intercalate line.words ++ "\n"

/-- The text of lines, one below the other. -/
def join (lines : List Line) : String := String.join (lines.map text)

/-- Lines, one group below another, are the texts of the groups put together. -/
theorem join_append (first second : List Line) :
    join (first ++ second) = join first ++ join second := by
  simp [join, String.join_append]

end Line

/-- How much further in a body stands. -/
def indentStep : Nat := 2

mutual

/-- The lines of a statement that stands at an indentation. -/
def Statement.lines (indent : Nat) : Statement → List Line
  | .ifThen c body =>
    ⟨indent, ["IF", c.text, "THEN"]⟩ :: Block.lines (indent + indentStep) body ++
      [⟨indent, ["END", "IF"]⟩]
  | .ifElse c thenBody elseBody =>
    ⟨indent, ["IF", c.text, "THEN"]⟩ :: Block.lines (indent + indentStep) thenBody ++
      ⟨indent, ["ELSE"]⟩ :: Block.lines (indent + indentStep) elseBody ++
      [⟨indent, ["END", "IF"]⟩]
  | .whileDo c body =>
    ⟨indent, ["WHILE", c.text, "DO"]⟩ :: Block.lines (indent + indentStep) body ++
      [⟨indent, ["END", "WHILE"]⟩]
  | .call name => [⟨indent, [name.text]⟩]

/-- The lines of a block that stands at an indentation. -/
def Block.lines (indent : Nat) : List Statement → List Line
  | [] => []
  | first :: more => first.lines indent ++ Block.lines indent more

end

/-- The lines of a fragment that stands at an indentation. -/
def Fragment.lines (indent : Nat) : Fragment → List Line
  | .block statements => Block.lines indent statements
  | .statement s => s.lines indent

/-- The printed form of a fragment that stands at an indentation. -/
def Fragment.textAt (indent : Nat) (fragment : Fragment) : String :=
  Line.join (fragment.lines indent)

/-- The printed form of a fragment. -/
def Fragment.text (fragment : Fragment) : String := fragment.textAt 0

namespace Program

/-- The lines of a definition, with the blank line behind it. -/
def definitionLines (entry : Identifier × Block) : List Line :=
  ⟨indentStep, ["INSTRUCTION", entry.1.text, "IS"]⟩ ::
    Block.lines (indentStep + indentStep) entry.2 ++
    [⟨indentStep, ["END", entry.1.text]⟩, ⟨0, []⟩]

/-- The lines of a program. -/
def lines (program : Program) : List Line :=
  [⟨0, ["PROGRAM", program.name.text, "IS"]⟩, ⟨0, []⟩] ++
    program.context.entries.flatMap definitionLines ++
    ⟨0, ["BEGIN"]⟩ :: Block.lines indentStep program.body ++ [⟨0, ["END", program.name.text]⟩]

/-- The printed form of a program. -/
def text (program : Program) : String := Line.join program.lines

end Program

end BlockLanguage
