/-
**The JSON dump of tokens, statements, programs and options.**

A node is dumped as an object: its kind, then its condition or instruction, then its children, which
are left out where there are none. A context is an object with one member per definition, in the
order of the context.
-/

import BlockLanguage.Json
import BlockLanguage.Layout
import BlockLanguage.Options.Reader
import BlockLanguage.Token

namespace BlockLanguage

/-- The dump of a place. -/
def Span.json (span : Span) : Json := .obj [("line", .num span.line), ("column", .num span.column)]

/-- The name of a kind of token. -/
def TokenKind.text : TokenKind → String
  | keyword => "Keyword"
  | condition => "Condition"
  | identifier => "Identifier"
  | error => "Error"
  | endOfInput => "EndOfInput"

/-- The dump of a token. -/
def Token.json (token : Token) : Json :=
  .obj [("kind", .str token.kind.text), ("lexeme", .str token.lexeme), ("span", token.span.json)]

/-- The dump of a kind of node. -/
def Kind.json (kind : Kind) : Json := .str kind.text

/-- The dump of a condition. -/
def Condition.json (condition : Condition) : Json := .str condition.text

/-- The members that dump a label. -/
def Label.members (label : Label) : List (String × Json) :=
  ("kind", label.kind.json) ::
    match label with
    | .block => []
    | .ifThen condition | .ifElse condition | .whileDo condition => [("condition", condition.json)]
    | .call instruction => [("instruction", .str instruction)]

mutual

/-- The dump of a tree. -/
def Tree.json : Tree → Json
  | .node label children =>
    .obj (label.members ++
      if children.isEmpty then [] else [("children", .arr (Tree.jsons children))])

/-- The dumps of trees. -/
def Tree.jsons : List Tree → List Json
  | [] => []
  | first :: more => first.json :: Tree.jsons more

end

theorem Tree.jsons_eq_map (trees : List Tree) : Tree.jsons trees = trees.map Tree.json := by
  induction trees with
  | nil => rw [Tree.jsons, List.map_nil]
  | cons first more ih => rw [Tree.jsons, ih, List.map_cons]

/-- The dump of a fragment. -/
def Fragment.json (fragment : Fragment) : Json := fragment.tree.json

/-- The dump of a context. -/
def Context.json (context : Context) : Json :=
  .obj (context.entries.map fun entry => (entry.1.text, (Block.tree entry.2).json))

/-- The dump of a program. -/
def Program.json (program : Program) : Json :=
  .obj [("name", .str program.name.text), ("context", program.context.json),
    ("body", (Block.tree program.body).json)]

/-- The dump of options. -/
def Options.json (options : Options) : Json :=
  .obj [("max_nesting_depth", .num options.maxNestingDepth)]

end BlockLanguage
