/-
**The lines of a text, and reports of parse errors.**

A line feed ends a line, together with one carriage return directly before it. What follows the
last line feed is a line of its own unless it is empty; a carriage return there is part of it.

A report shows the line of the source text in which the error lies, and below it a caret at the
column of the error. The caret is moved there by one blank per column; where the line has a tab, so
has the padding, so that both are equally wide.
-/

import BlockLanguage.ParseError

namespace BlockLanguage

namespace Text

/-- The lines of a text, without what ends them. -/
def lines : List Char → List (List Char)
  | [] => []
  | '\n' :: rest => [] :: lines rest
  | '\r' :: '\n' :: rest => [] :: lines rest
  | c :: rest =>
    match lines rest with
    | [] => [[c]]
    | line :: more => (c :: line) :: more

/-- The line with a number counted from one, where zero counts as one and a missing line is
empty. -/
def lineAt (text : List Char) (number : Nat) : List Char :=
  ((lines text)[number - 1]?).getD []

end Text

namespace Report

/-- The blanks that lead to a column below a line. -/
def padding (line : List Char) (column : Nat) : List Char :=
  let above := (line.take column).map fun c => if c = '\t' then '\t' else ' '
  above ++ List.replicate (column - above.length) ' '

/-- A line number, moved right so that it takes up three columns at least. -/
def lineNumber (number : Nat) : String :=
  let digits := toString number
  String.ofList (List.replicate (3 - digits.length) ' ') ++ digits

/-- The lines of a report on an error in a source text. -/
def lines (file source : String) (error : ParseError) : List String :=
  let excerpt := Text.lineAt source.toList error.span.line
  [s!"error[{error.code}]: {error.message}",
   s!"  --> {file}:{error.span.line}:{error.span.column + 1}",
   "    |",
   s!"{lineNumber error.span.line} | {String.ofList excerpt}",
   s!"    | {String.ofList (padding excerpt error.span.column)}^"] ++
  (error.help.map fun help => s!"help: {help}").toList

end Report

/-- The report on an error in a source text. -/
def ParseError.report (error : ParseError) (file source : String) : String :=
  String.join ((Report.lines file source error).map (· ++ "\n"))

end BlockLanguage
