/-
**Where printed lines stand.**

Every line of a printed statement belongs to a node: an IF or a WHILE prints a line in front of each
of its bodies and one behind the last, a call prints one line, and a block none. A line stands at
the indentation of the whole text and two columns further in for every IF and WHILE around its node.
So a text that is printed further in differs in nothing but blanks in front of its lines.

* `Tree.printed`: the lines of a tree, each with the nodes around the one that it belongs to.
* `Fragment.lines_eq_printed`: a printed fragment has the lines of its tree.
* `Text.lines_join`: the lines of a printed text, character by character.
* `Fragment.textAt_uniform`: all of it together.
-/

import BlockLanguage.Proofs.RoundTrip
import BlockLanguage.Proofs.SourceLines

namespace BlockLanguage

/-! ### The lines of a tree -/

namespace Label

/-- Whether what is below a node stands further in than the node. -/
def nests : Label → Bool
  | ifThen _ | ifElse _ | whileDo _ => true
  | block | call _ => false

/-- The lines that belong to a node: one in front of each of its children, and a last one. -/
def ownLines : Label → List (List String)
  | block => []
  | ifThen condition => [["IF", condition.text, "THEN"], ["END", "IF"]]
  | ifElse condition => [["IF", condition.text, "THEN"], ["ELSE"], ["END", "IF"]]
  | whileDo condition => [["WHILE", condition.text, "DO"], ["END", "WHILE"]]
  | call name => [[name]]

end Label

/-- The words of a line, the label of the node that it belongs to, and the labels of the nodes
around that one, the outermost first. -/
structure Printed where
  around : List Label
  label : Label
  words : List String

namespace Printed

/-- The same line in a tree in which one more node stands around. -/
def below (label : Label) (line : Printed) : Printed := { line with around := label :: line.around }

/-- How many IFs and WHILEs stand around the node that a line belongs to. -/
def nesting (line : Printed) : Nat := line.around.countP Label.nests

/-- The column at which a line begins in a text that is printed at an indentation. -/
def column (indent : Nat) (line : Printed) : Nat := indent + 2 * line.nesting

/-- A line as it stands in a text that is printed at an indentation. -/
def lineAt (indent : Nat) (line : Printed) : Line := ⟨line.column indent, line.words⟩

/-- A line of the root stands where the text does. -/
@[simp] theorem lineAt_root (indent : Nat) (label : Label) (words : List String) :
    lineAt indent ⟨[], label, words⟩ = ⟨indent, words⟩ := rfl

/-- What is below an IF or a WHILE stands two columns further in. -/
theorem map_lineAt_below (indent : Nat) {label : Label} (nests : label.nests = true)
    (lines : List Printed) :
    (lines.map (below label)).map (lineAt indent) = lines.map (lineAt (indent + indentStep)) := by
  rw [List.map_map]
  refine List.map_congr_left fun line _ => ?_
  simp only [Function.comp, lineAt, column, nesting, below, List.countP_cons_of_pos nests,
    indentStep]
  congr 1
  omega

/-- What is below a block stands where the block does. -/
theorem map_lineAt_below_block (indent : Nat) (lines : List Printed) :
    (lines.map (below .block)).map (lineAt indent) = lines.map (lineAt indent) := by
  have noNest : ¬ Label.nests .block = true := Bool.false_ne_true
  rw [List.map_map]
  refine List.map_congr_left fun line _ => ?_
  simp only [Function.comp, lineAt, column, nesting, below, List.countP_cons_of_neg noNest]

end Printed

mutual

/-- The lines of a tree, from the first to the last. -/
def Tree.printed : Tree → List Printed
  | .node label children => Tree.printedAmong label label.ownLines children

/-- Lines of a node, and in turn those of its children. -/
def Tree.printedAmong (label : Label) (own : List (List String)) : List Tree → List Printed
  | [] => own.map (Printed.mk [] label)
  | child :: more =>
    own.head?.toList.map (Printed.mk [] label) ++ child.printed.map (Printed.below label) ++
      Tree.printedAmong label own.tail more

end

mutual

/-- A line is one of those that belong to its node. -/
theorem Tree.words_mem_ownLines : ∀ tree : Tree, ∀ line ∈ tree.printed,
    line.words ∈ line.label.ownLines
  | .node label children => Tree.words_mem_ownLines_among label (List.Subset.refl _) children

theorem Tree.words_mem_ownLines_among (label : Label) {own : List (List String)}
    (known : own ⊆ label.ownLines) : ∀ children : List Tree,
      ∀ line ∈ Tree.printedAmong label own children, line.words ∈ line.label.ownLines
  | [], line, member => by
    obtain ⟨words, listed, rfl⟩ := List.mem_map.mp member
    exact known listed
  | child :: more, line, member => by
    rw [Tree.printedAmong, List.mem_append, List.mem_append] at member
    rcases member with (front | inside) | behind
    · obtain ⟨words, listed, rfl⟩ := List.mem_map.mp front
      exact known (List.mem_of_head? (Option.mem_toList.mp listed))
    · obtain ⟨inner, member, rfl⟩ := List.mem_map.mp inside
      exact Tree.words_mem_ownLines child inner member
    · have fewer : own.tail ⊆ label.ownLines := fun words listed =>
        known (List.mem_of_mem_tail listed)
      exact Tree.words_mem_ownLines_among label fewer more line behind

end

theorem Label.nil_notMem_ownLines (label : Label) : [] ∉ label.ownLines := by
  cases label <;> simp [ownLines]

/-! ### A fragment is printed as its tree -/

mutual

/-- A printed statement has the lines of its tree. -/
theorem Statement.lines_eq_printed (indent : Nat) :
    ∀ s : Statement, s.lines indent = s.tree.printed.map (Printed.lineAt indent)
  | .ifThen c body => by
    have nests : (Label.ifThen c).nests = true := rfl
    rw [Statement.lines, Block.lines_eq_printed (indent + indentStep) body,
      ← Printed.map_lineAt_below indent nests]
    simp [Statement.tree, Tree.printed.eq_1 (.ifThen c), Tree.printedAmong, Label.ownLines]
  | .ifElse c thenBody elseBody => by
    have nests : (Label.ifElse c).nests = true := rfl
    rw [Statement.lines, Block.lines_eq_printed (indent + indentStep) thenBody,
      Block.lines_eq_printed (indent + indentStep) elseBody,
      ← Printed.map_lineAt_below indent nests, ← Printed.map_lineAt_below indent nests]
    simp [Statement.tree, Tree.printed.eq_1 (.ifElse c), Tree.printedAmong, Label.ownLines]
  | .whileDo c body => by
    have nests : (Label.whileDo c).nests = true := rfl
    rw [Statement.lines, Block.lines_eq_printed (indent + indentStep) body,
      ← Printed.map_lineAt_below indent nests]
    simp [Statement.tree, Tree.printed.eq_1 (.whileDo c), Tree.printedAmong, Label.ownLines]
  | .call name => rfl

/-- A printed block has the lines of its tree. -/
theorem Block.lines_eq_printed (indent : Nat) : ∀ body : List Statement,
    Block.lines indent body =
      (Tree.node .block (Block.trees body)).printed.map (Printed.lineAt indent)
  | [] => rfl
  | first :: more => by
    have tail := Block.lines_eq_printed indent more
    rw [Tree.printed] at tail
    rw [Block.lines, Statement.lines_eq_printed indent first, tail, Block.trees, Tree.printed,
      Tree.printedAmong, List.map_append, List.map_append, Printed.map_lineAt_below_block]
    rfl

end

/-- A printed fragment has the lines of its tree. -/
theorem Fragment.lines_eq_printed (indent : Nat) (fragment : Fragment) :
    fragment.lines indent = fragment.tree.printed.map (Printed.lineAt indent) := by
  cases fragment with
  | block statements => exact Block.lines_eq_printed indent statements
  | statement s => exact s.lines_eq_printed indent

/-! ### The characters of a line -/

/-- The characters of a line in front of its line feed. -/
def Line.chars (line : Line) : List Char :=
  List.replicate line.indent ' ' ++ (" ".intercalate line.words).toList

theorem Line.toList_text (line : Line) : line.text.toList = line.chars ++ ['\n'] := by
  rw [Line.text, String.toList_append, String.toList_append, String.toList_ofList]
  rfl

namespace Text

/-- A text begins and ends with a character of a word, and holds nothing else but spaces. -/
structure Flush (text : List Char) : Prop where
  inside : ∀ c ∈ text, c = ' ' ∨ Word.continuesWord c = true
  first : ∃ c, text.head? = some c ∧ Word.continuesWord c = true
  last : ∃ c, text.getLast? = some c ∧ Word.continuesWord c = true

namespace Flush

variable {text more : List Char}

theorem of_word {word : String} (isWord : Word.isWord word = true) : Flush word.toList := by
  have continues : ∀ c ∈ word.toList, Word.continuesWord c = true := fun c member =>
    Word.continuesWord_of_mem isWord member
  have nonempty := Word.toList_ne_nil isWord
  exact ⟨fun c member => .inr (continues c member),
    ⟨_, List.head?_eq_some_head nonempty, continues _ (List.head_mem nonempty)⟩,
    ⟨_, List.getLast?_eq_some_getLast nonempty, continues _ (List.getLast_mem nonempty)⟩⟩

/-- Two texts with a space between them. -/
theorem append (flush : Flush text) (flush' : Flush more) : Flush (text ++ ' ' :: more) := by
  obtain ⟨first, head, begins⟩ := flush.first
  obtain ⟨last, getLast, ends⟩ := flush'.last
  refine ⟨fun c member => ?_, ⟨first, ?_, begins⟩, ⟨last, ?_, ends⟩⟩
  · rcases List.mem_append.mp member with front | back
    · exact flush.inside c front
    · rcases List.mem_cons.mp back with space | behind
      · exact .inl space
      · exact flush'.inside c behind
  · rw [List.head?_append, head]
    rfl
  · rw [List.getLast?_append, List.getLast?_cons, getLast]
    rfl

theorem intercalate {words : List String} (areWords : Word.AreWords words)
    (nonempty : words ≠ []) : Flush (" ".intercalate words).toList := by
  induction words with
  | nil => exact absurd rfl nonempty
  | cons word more ih =>
    obtain ⟨isWord, areWords⟩ := Word.areWords_cons_iff.mp areWords
    cases more with
    | nil => exact of_word isWord
    | cons next others =>
      have behind := ih areWords (List.cons_ne_nil next others)
      rw [String.intercalate_cons_cons, String.toList_append, String.toList_append,
        List.append_assoc]
      exact (of_word isWord).append behind

theorem newline_notMem (flush : Flush text) : '\n' ∉ text := by
  intro member
  rcases flush.inside _ member with space | continues
  · exact absurd space (by decide)
  · exact absurd continues (by decide)

theorem withoutReturn_eq (flush : Flush text) : withoutReturn text = text := by
  obtain ⟨last, getLast, ends⟩ := flush.last
  rw [withoutReturn, if_neg]
  rw [getLast]
  rintro ⟨⟩
  exact absurd ends (by decide)

end Flush

end Text

/-- A line has words, and nothing else. -/
structure Line.Solid (line : Line) : Prop where
  words : Word.AreWords line.words
  nonempty : line.words ≠ []

namespace Line.Solid

variable {line : Line}

theorem flush (solid : line.Solid) : Text.Flush (" ".intercalate line.words).toList :=
  .intercalate solid.words solid.nonempty

/-- A line begins with as many spaces as it is indented. -/
theorem length_takeWhile_chars (solid : line.Solid) :
    (line.chars.takeWhile (· = ' ')).length = line.indent := by
  obtain ⟨first, head, begins⟩ := solid.flush.first
  obtain ⟨rest, words⟩ := List.head?_eq_some_iff.mp head
  have stops : (first :: rest).takeWhile (· = ' ') = [] := by
    refine List.takeWhile_cons_of_neg fun space => ?_
    rw [of_decide_eq_true space] at begins
    exact absurd begins (by decide)
  rw [chars, words, List.takeWhile_append_of_pos (by simp), stops, List.append_nil,
    List.length_replicate]

/-- No space stands at the end of a line. -/
theorem getLast?_chars_ne (solid : line.Solid) : line.chars.getLast? ≠ some ' ' := by
  obtain ⟨last, getLast, ends⟩ := solid.flush.last
  rw [chars, List.getLast?_append, getLast]
  rintro ⟨⟩
  exact absurd ends (by decide)

end Line.Solid

/-- The lines of a printed text are those that are printed. -/
theorem Text.lines_join {printed : List Line} (solid : ∀ line ∈ printed, line.Solid) :
    lines (Line.join printed).toList = printed.map Line.chars := by
  rw [Line.join, String.toList_join]
  induction printed with
  | nil => rw [List.map_nil, List.flatMap_nil, lines, List.map_nil]
  | cons line more ih =>
    rw [List.forall_mem_cons] at solid
    have flush := solid.1.flush
    have inLine : '\n' ∉ line.chars := by
      rw [Line.chars, List.mem_append, not_or]
      exact ⟨by simp, flush.newline_notMem⟩
    have kept : withoutReturn line.chars = line.chars := by
      obtain ⟨c, first, _⟩ := flush.first
      rw [Line.chars, withoutReturn_append _ (List.ne_nil_of_mem (List.mem_of_head? first)),
        flush.withoutReturn_eq]
    rw [List.map_cons, List.flatMap_cons, Line.toList_text, List.append_assoc,
      List.singleton_append, lines_append_newline inLine, kept, ih solid.2, List.map_cons]

/-! ### Printed fragments -/

namespace Fragment

/-- Every line of a printed fragment has words, and nothing else. -/
theorem solid_lines (indent : Nat) (fragment : Fragment) :
    ∀ line ∈ fragment.lines indent, line.Solid := by
  intro line member
  have words : Word.AreWords ((fragment.lines indent).flatMap (·.words)) := by
    rw [words_lines]
    exact fragment.areWords_lexemes
  refine ⟨Word.areWords_flatMap_iff.mp words line member, ?_⟩
  rw [lines_eq_printed] at member
  obtain ⟨printed, listed, rfl⟩ := List.mem_map.mp member
  intro empty
  have own := Tree.words_mem_ownLines fragment.tree printed listed
  exact Label.nil_notMem_ownLines printed.label (empty ▸ own)

/-- The lines of a printed fragment are those of its tree, each in its column. -/
theorem lines_textAt (indent : Nat) (fragment : Fragment) :
    Text.lines (fragment.textAt indent).toList =
      fragment.tree.printed.map fun line => (line.lineAt indent).chars := by
  rw [textAt, Text.lines_join (fragment.solid_lines indent), lines_eq_printed, List.map_map]
  rfl

/-- The characters of a printed fragment. -/
theorem toList_textAt (indent : Nat) (fragment : Fragment) :
    (fragment.textAt indent).toList =
      fragment.tree.printed.flatMap fun line => (line.lineAt indent).chars ++ ['\n'] := by
  rw [textAt, Line.join, String.toList_join, lines_eq_printed, List.map_map, List.flatMap_map]
  simp only [Function.comp_apply, Line.toList_text]

/-- A block is printed as its statements are, one below the other. -/
theorem textAt_block (indent : Nat) (statements : Block) :
    (block statements).textAt indent =
      String.join (statements.map fun s => (statement s).textAt indent) := by
  induction statements with
  | nil => rfl
  | cons first more ih =>
    have front : (block (first :: more)).lines indent =
        first.lines indent ++ (block more).lines indent := rfl
    rw [textAt, front, Line.join_append, List.map_cons, String.join_cons, ← ih]
    rfl

/-- A line of a text that is printed further in has that many spaces in front of it. -/
theorem chars_lineAt_add (indent more : Nat) (line : Printed) :
    (line.lineAt (indent + more)).chars =
      List.replicate more ' ' ++ (line.lineAt indent).chars := by
  have column : line.column (indent + more) = more + line.column indent := by
    unfold Printed.column
    omega
  simp only [Line.chars, Printed.lineAt, column, ← List.replicate_append_replicate,
    List.append_assoc]

/-- **Printed lines stand in the columns of their nodes.** A text that is printed further in has
spaces in front of every line and is the same otherwise. Every line ends with a line feed and not
with a space, and begins with two spaces for every IF and WHILE around the node that it belongs to,
besides the indentation of the text. A block is printed as its statements, one below the other. -/
theorem textAt_uniform (fragment : Fragment) (indent : Nat) :
    (∀ more, (fragment.textAt (indent + more)).toList =
      (Text.lines (fragment.textAt indent).toList).flatMap fun line =>
        List.replicate more ' ' ++ line ++ ['\n']) ∧
    ((fragment.textAt indent).toList =
      (Text.lines (fragment.textAt indent).toList).flatMap fun line => line ++ ['\n']) ∧
    (∀ line ∈ Text.lines (fragment.textAt indent).toList, line.getLast? ≠ some ' ') ∧
    (Text.lines (fragment.textAt indent).toList =
      fragment.tree.printed.map fun line =>
        List.replicate (indent + 2 * line.nesting) ' ' ++ (" ".intercalate line.words).toList) ∧
    ((Text.lines (fragment.textAt indent).toList).map
        (fun line => (line.takeWhile (· = ' ')).length) =
      fragment.tree.printed.map fun line => indent + 2 * line.nesting) ∧
    ∀ statements : Block, (block statements).textAt indent =
      String.join (statements.map fun s => (statement s).textAt indent) := by
  have lines := lines_textAt indent fragment
  have solid : ∀ line ∈ fragment.tree.printed, (line.lineAt indent).Solid := by
    intro line member
    refine solid_lines indent fragment _ ?_
    rw [lines_eq_printed]
    exact List.mem_map_of_mem member
  refine ⟨fun more => ?_, ?_, ?_, lines, ?_, textAt_block indent⟩
  · rw [lines, toList_textAt, List.flatMap_map]
    simp only [chars_lineAt_add]
  · rw [lines, toList_textAt, List.flatMap_map]
  · rw [lines, List.forall_mem_map]
    exact fun line member => (solid line member).getLast?_chars_ne
  · rw [lines, List.map_map]
    exact List.map_congr_left fun line member => (solid line member).length_takeWhile_chars

/-- An IF with ELSE in a WHILE: the columns of its lines, and the last line further in. -/
theorem textAt_uniform_nested :
    let skip : Statement := .call ⟨"skip", by decide⟩
    let loop : Fragment := .statement (.whileDo .always [.ifElse .random [skip] [skip]])
    ((Text.lines (loop.textAt 1).toList).map fun line => (line.takeWhile (· = ' ')).length) =
        [1, 3, 5, 3, 5, 3, 1] ∧
      (∃ line ∈ Text.lines (loop.textAt 1).toList, line.getLast? ≠ some ' ') ∧
      (loop.textAt (1 + 3)).toList = (Text.lines (loop.textAt 1).toList).flatMap fun line =>
        List.replicate 3 ' ' ++ line ++ ['\n'] := by
  intro skip loop
  obtain ⟨further, _, ends, lines, columns, _⟩ := textAt_uniform loop 1
  have last : [' ', 'E', 'N', 'D', ' ', 'W', 'H', 'I', 'L', 'E'] ∈
      Text.lines (loop.textAt 1).toList := by
    rw [lines]
    decide
  exact ⟨columns, ⟨_, last, ends _ last⟩, further 3⟩

end Fragment

end BlockLanguage
