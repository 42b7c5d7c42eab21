/-
**A dump can be decoded, and determines what was dumped.**

* `Statement.textual_json`, `Program.textual_json` — dumps consist of arrays, objects, and strings
  without spaces, since names and conditions are words.
* `Tree.ofJson?`, `Statement.ofTree?`, `Program.ofJson?` — what was dumped, from the value that is
  its dump.
* **`Dumped.decodes`** — a decoder gives back every fragment and every program from both forms of
  its dump; so equal dumps come from equal values.
-/

import BlockLanguage.Dump
import BlockLanguage.Fragment
import BlockLanguage.Program
import BlockLanguage.Proofs.JsonReading

namespace BlockLanguage

open Json (Textual)

/-! ### Dumps are textual -/

theorem Word.space_notMem {text : String} (word : Word.isWord text = true) : ' ' ∉ text.toList := by
  intro member
  exact absurd (Word.continuesWord_of_mem word member) (by decide)

theorem Kind.space_notMem (kind : Kind) : ' ' ∉ kind.text.toList := by
  cases kind <;> decide

/-- The members of a label hold no spaces if the name that it calls is a word. -/
theorem Label.textual_members {label : Label}
    (called : ∀ name, label.instruction? = some name → Word.isWord name = true) :
    ∀ member ∈ label.members, ' ' ∉ member.1.toList ∧ Textual member.2 := by
  have kindKey : ' ' ∉ "kind".toList := by decide
  have conditionKey : ' ' ∉ "condition".toList := by decide
  have instructionKey : ' ' ∉ "instruction".toList := by decide
  have kind : Textual label.kind.json := .str label.kind.space_notMem
  cases label with
  | block => exact List.forall_mem_singleton.mpr ⟨kindKey, kind⟩
  | ifThen condition | ifElse condition | whileDo condition =>
    have solid := Word.space_notMem condition.isWord_text
    exact List.forall_mem_cons.mpr
      ⟨⟨kindKey, kind⟩, List.forall_mem_singleton.mpr ⟨conditionKey, .str solid⟩⟩
  | call name =>
    have solid := Word.space_notMem (called name rfl)
    exact List.forall_mem_cons.mpr
      ⟨⟨kindKey, kind⟩, List.forall_mem_singleton.mpr ⟨instructionKey, .str solid⟩⟩

/-- A node is dumped without spaces if its label and the trees below it are. -/
theorem Tree.textual_json {label : Label} {children : List Tree}
    (called : ∀ name, label.instruction? = some name → Word.isWord name = true)
    (below : ∀ tree ∈ children, tree.json.Textual) : (Tree.node label children).json.Textual := by
  have childrenKey : ' ' ∉ "children".toList := by decide
  have dumps : ∀ value ∈ Tree.jsons children, value.Textual := by
    rw [Tree.jsons_eq_map]
    exact List.forall_mem_map.mpr below
  have members : ∀ member ∈ label.members ++
      (if children.isEmpty then [] else [("children", Json.arr (Tree.jsons children))]),
      ' ' ∉ member.1.toList ∧ Textual member.2 := by
    refine List.forall_mem_append.mpr ⟨Label.textual_members called, ?_⟩
    split
    · exact List.forall_mem_nil _
    · exact List.forall_mem_singleton.mpr ⟨childrenKey, .arr dumps⟩
  rw [Tree.json]
  exact .obj (fun member listed => (members member listed).1)
    fun member listed => (members member listed).2

mutual

/-- A statement is dumped without spaces. -/
theorem Statement.textual_json : ∀ s : Statement, s.tree.json.Textual
  | .ifThen c body | .whileDo c body =>
    Tree.textual_json nofun
      (List.forall_mem_singleton.mpr (Tree.textual_json nofun (Block.textual_trees body)))
  | .ifElse c thenBody elseBody =>
    Tree.textual_json nofun (List.forall_mem_cons.mpr
      ⟨Tree.textual_json nofun (Block.textual_trees thenBody),
        List.forall_mem_singleton.mpr (Tree.textual_json nofun (Block.textual_trees elseBody))⟩)
  | .call name => Tree.textual_json (fun _ same => by cases same; exact name.isWord_text) nofun

theorem Block.textual_trees :
    ∀ body : List Statement, ∀ tree ∈ Block.trees body, tree.json.Textual
  | [] => List.forall_mem_nil _
  | first :: more =>
    List.forall_mem_cons.mpr ⟨Statement.textual_json first, Block.textual_trees more⟩

end

/-- A block is dumped without spaces. -/
theorem Block.textual_json (body : Block) : (Block.tree body).json.Textual :=
  Tree.textual_json nofun (Block.textual_trees body)

/-- A fragment is dumped without spaces. -/
theorem Fragment.textual_json : ∀ fragment : Fragment, fragment.json.Textual
  | .block body => Block.textual_json body
  | .statement s => Statement.textual_json s

theorem Context.textual_json (context : Context) : context.json.Textual := by
  refine .obj (List.forall_mem_map.mpr ?_) (List.forall_mem_map.mpr ?_)
  · exact fun entry _ => Word.space_notMem entry.1.isWord_text
  · exact fun entry _ => Block.textual_json entry.2

/-- A program is dumped without spaces. -/
theorem Program.textual_json (program : Program) : program.json.Textual := by
  have name : Textual (.str program.name.text) := .str (Word.space_notMem program.name.isWord_text)
  have keys : ∀ key ∈ ["name", "context", "body"], ' ' ∉ key.toList := by decide
  refine .obj (fun member listed => keys member.1 (List.mem_map_of_mem listed)) ?_
  simp only [List.forall_mem_cons]
  exact ⟨name, program.context.textual_json, Block.textual_json program.body,
    List.forall_mem_nil _⟩

/-! ### Reading trees -/

/-- The label that the members of a node begin with. -/
def Label.ofMembers? : List (String × Json) → Option Label
  | ("kind", .str "BLOCK") :: _ => some .block
  | ("kind", .str "IF") :: ("condition", .str text) :: _ => (Condition.ofText? text).map .ifThen
  | ("kind", .str "IF_ELSE") :: ("condition", .str text) :: _ =>
    (Condition.ofText? text).map .ifElse
  | ("kind", .str "WHILE") :: ("condition", .str text) :: _ =>
    (Condition.ofText? text).map .whileDo
  | ("kind", .str "CALL") :: ("instruction", .str text) :: _ => some (.call text)
  | _ => none

mutual

/-- The tree whose dump a value is. -/
def Tree.ofJson? : Json → Option Tree
  | .obj members => do
    let label ← Label.ofMembers? members
    let children ← Tree.childrenOf? members
    return .node label children
  | _ => none

/-- The trees below a node, which has no member for them where there are none. -/
def Tree.childrenOf? : List (String × Json) → Option (List Tree)
  | [] => some []
  | (_, .arr values) :: _ => Tree.ofJsons? values
  | _ :: more => Tree.childrenOf? more

/-- The trees whose dumps values are. -/
def Tree.ofJsons? : List Json → Option (List Tree)
  | [] => some []
  | first :: more => do
    let tree ← Tree.ofJson? first
    let trees ← Tree.ofJsons? more
    return tree :: trees

end

theorem Label.ofMembers?_append (label : Label) (more : List (String × Json)) :
    Label.ofMembers? (label.members ++ more) = some label := by
  cases label with
  | block => rfl
  | call name => rfl
  | ifThen condition | ifElse condition | whileDo condition =>
    have read := Condition.ofText?_eq_some_iff.mpr (Eq.refl condition.text)
    simp [Label.members, Label.ofMembers?, Label.kind, Kind.json, Kind.text, Condition.json, read]

/-- The members of a label are none for the trees below the node. -/
theorem Tree.childrenOf?_append (label : Label) (more : List (String × Json)) :
    Tree.childrenOf? (label.members ++ more) = Tree.childrenOf? more := by
  cases label <;> rfl

mutual

/-- **Every tree is read back from its dump.** -/
theorem Tree.ofJson?_json : ∀ tree : Tree, Tree.ofJson? tree.json = some tree
  | .node label children => by
    have below : Tree.childrenOf?
        (if children.isEmpty then [] else [("children", .arr (Tree.jsons children))]) =
        some children := by
      cases children with
      | nil => rfl
      | cons first more => exact Tree.ofJsons?_jsons (first :: more)
    rw [Tree.json, Tree.ofJson?, Label.ofMembers?_append, Tree.childrenOf?_append, below]
    rfl

theorem Tree.ofJsons?_jsons : ∀ trees : List Tree, Tree.ofJsons? (Tree.jsons trees) = some trees
  | [] => rfl
  | first :: more => by
    rw [Tree.jsons, Tree.ofJsons?, Tree.ofJson?_json first, Tree.ofJsons?_jsons more]
    rfl

end

/-! ### Reading statements -/

mutual

/-- The statement that a tree is the view of. -/
def Statement.ofTree? : Tree → Option Statement
  | .node (.ifThen condition) [.node .block body] => do
    return .ifThen condition (← Block.ofTrees? body)
  | .node (.ifElse condition) [.node .block thenBody, .node .block elseBody] => do
    return .ifElse condition (← Block.ofTrees? thenBody) (← Block.ofTrees? elseBody)
  | .node (.whileDo condition) [.node .block body] => do
    return .whileDo condition (← Block.ofTrees? body)
  | .node (.call name) [] => do
    return .call (← Identifier.ofText? name)
  | _ => none

/-- The statements that trees are the views of. -/
def Block.ofTrees? : List Tree → Option Block
  | [] => some []
  | first :: more => do
    let s ← Statement.ofTree? first
    let rest ← Block.ofTrees? more
    return s :: rest

end

mutual

theorem Statement.ofTree?_tree : ∀ s : Statement, Statement.ofTree? s.tree = some s
  | .ifThen condition body => by
    rw [Statement.tree, Statement.ofTree?, Block.ofTrees?_trees body]
    rfl
  | .ifElse condition thenBody elseBody => by
    rw [Statement.tree, Statement.ofTree?, Block.ofTrees?_trees thenBody,
      Block.ofTrees?_trees elseBody]
    rfl
  | .whileDo condition body => by
    rw [Statement.tree, Statement.ofTree?, Block.ofTrees?_trees body]
    rfl
  | .call name => by
    rw [Statement.tree, Statement.ofTree?, Identifier.ofText?_text]
    rfl

theorem Block.ofTrees?_trees :
    ∀ body : List Statement, Block.ofTrees? (Block.trees body) = some body
  | [] => rfl
  | first :: more => by
    rw [Block.trees, Block.ofTrees?, Statement.ofTree?_tree first, Block.ofTrees?_trees more]
    rfl

end

/-- The block that a tree is the view of. -/
def Block.ofTree? : Tree → Option Block
  | .node .block body => Block.ofTrees? body
  | _ => none

theorem Block.ofTree?_tree (body : Block) : Block.ofTree? (Block.tree body) = some body :=
  Block.ofTrees?_trees body

/-- The fragment that a tree is the view of. -/
def Fragment.ofTree? (tree : Tree) : Option Fragment :=
  match Block.ofTree? tree with
  | some body => some (.block body)
  | none => (Statement.ofTree? tree).map .statement

theorem Fragment.ofTree?_tree (fragment : Fragment) : ofTree? fragment.tree = some fragment := by
  cases fragment with
  | block body =>
    rw [Fragment.tree, ofTree?, Block.ofTree?_tree]
  | statement s =>
    have noBlock : Block.ofTree? s.tree = none := by cases s <;> rfl
    rw [Fragment.tree, ofTree?, noBlock, Statement.ofTree?_tree]
    rfl

/-! ### Reading programs -/

/-- The entry of a context whose dump a member is. -/
def Context.entryOf? (member : String × Json) : Option (Identifier × Block) := do
  let name ← Identifier.ofText? member.1
  let tree ← Tree.ofJson? member.2
  return (name, ← Block.ofTree? tree)

theorem Context.mapM_entryOf? (entries : Context.Entries) :
    (entries.map fun entry => (entry.1.text, (Block.tree entry.2).json)).mapM entryOf? =
      some entries := by
  induction entries with
  | nil => rfl
  | cons entry more ih =>
    have here : entryOf? (entry.1.text, (Block.tree entry.2).json) = some entry := by
      rw [entryOf?, Identifier.ofText?_text, Tree.ofJson?_json]
      simp [Block.ofTree?_tree]
    rw [List.map_cons, List.mapM_cons, here, ih]
    rfl

/-- The program whose dump a value is. -/
def Program.ofJson? : Json → Option Program
  | .obj [("name", .str name), ("context", .obj members), ("body", body)] => do
    let name ← Identifier.ofText? name
    let entries ← members.mapM Context.entryOf?
    let body ← Block.ofTree? (← Tree.ofJson? body)
    if sorted : Context.Sorted entries then
      if definable : ∀ entry ∈ entries, Word.isPrimitive entry.1.text = false then
        return ⟨name, ⟨entries, sorted, definable⟩, body⟩
      else none
    else none
  | _ => none

/-- **Every program is read back from its dump.** -/
theorem Program.ofJson?_json (program : Program) : ofJson? program.json = some program := by
  have definable : ∀ entry ∈ program.context.entries, Word.isPrimitive entry.1.text = false :=
    program.context.definable
  rw [Program.json, Context.json, ofJson?, Identifier.ofText?_text, Context.mapM_entryOf?,
    Tree.ofJson?_json]
  simpa [Block.ofTree?_tree, program.context.sorted] using definable

/-! ### Dumped values -/

/-- A value that can be dumped: a block or a single statement, or a program. -/
inductive Dumped
  | fragment (fragment : Fragment)
  | program (program : Program)

namespace Dumped

/-- The dump of a value. -/
def json : Dumped → Json
  | fragment f => f.json
  | program p => p.json

theorem textual_json : ∀ dumped : Dumped, dumped.json.Textual
  | fragment f => f.textual_json
  | program p => p.textual_json

/-- The decoder: the value whose dump is written in a text. -/
def ofText? (text : String) : Option Dumped := do
  let json ← Json.ofText? text
  match Program.ofJson? json with
  | some p => return program p
  | none => return fragment (← Fragment.ofTree? (← Tree.ofJson? json))

/-- A tree is not dumped as a program is. -/
theorem ofJson?_json_tree (tree : Tree) : Program.ofJson? tree.json = none := by
  obtain ⟨label, children⟩ := tree
  cases label <;> rfl

/-- The decoder gives back the value that was dumped. -/
theorem ofText?_of_read {dumped : Dumped} {text : String}
    (read : Json.ofText? text = some dumped.json) : ofText? text = some dumped := by
  rw [ofText?, read]
  cases dumped with
  | fragment f =>
    have noProgram : Program.ofJson? (json (fragment f)) = none := ofJson?_json_tree f.tree
    have tree : Tree.ofJson? (json (fragment f)) = some f.tree := Tree.ofJson?_json f.tree
    simp [noProgram, tree, Fragment.ofTree?_tree]
  | program p =>
    have read : Program.ofJson? (json (program p)) = some p := Program.ofJson?_json p
    simp [read]

/-- **A dump can be decoded, and determines what was dumped.** Its two forms differ only in spaces
and line feeds. -/
theorem decodes (first second : Dumped) :
    (ofText? first.json.text = some first ∧ ofText? first.json.pretty = some first) ∧
    (first.json.text = second.json.text ↔ first = second) ∧
    (first.json.pretty = second.json.pretty ↔ first = second) ∧
    String.ofList (Json.bare first.json.pretty.toList) = first.json.text := by
  have compact (dumped : Dumped) : ofText? dumped.json.text = some dumped :=
    ofText?_of_read dumped.textual_json.ofText?_text
  have pretty (dumped : Dumped) : ofText? dumped.json.pretty = some dumped :=
    ofText?_of_read dumped.textual_json.ofText?_pretty
  refine ⟨⟨compact first, pretty first⟩, ⟨fun same => ?_, fun same => by rw [same]⟩,
    ⟨fun same => ?_, fun same => by rw [same]⟩, first.textual_json.bare_pretty⟩
  · have read := compact first
    rw [same, compact second] at read
    exact (Option.some.inj read).symm
  · have read := pretty first
    rw [same, pretty second] at read
    exact (Option.some.inj read).symm

end Dumped

end BlockLanguage
