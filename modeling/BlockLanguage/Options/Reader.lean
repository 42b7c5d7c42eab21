/-
**The options of a parse, and reading them from a JSON text.**

The only option is how deep IF and WHILE may be nested.

In a JSON text, options are an object, in which members of other names are passed over and a missing
member takes its default, or an array of at most one item. The text is read item by item, and the
first item that does not fit decides what is wrong. The limit is a whole number of 64 bits; a second
member of its name is unsuitable as soon as the name is read.
-/

import BlockLanguage.Json.Skip

namespace BlockLanguage

/-- The options of a parse. -/
structure Options where
  maxNestingDepth : Nat := 256
  deriving DecidableEq, Inhabited

namespace Options

open Json (Fault Item Skip)

/-- The name of the only member that counts. -/
def limitKey : String := "max_nesting_depth"

/-- How far options have been read: where in the text, and the limit if it has been found. -/
inductive Reader
  /-- At the front. -/
  | start
  /-- Behind the bracket that opens an array. -/
  | arrayItem
  /-- Behind the item of an array. -/
  | arrayEnd (limit : Nat)
  /-- Behind the bracket that opens an object. -/
  | keyOrClose
  /-- Behind a comma. -/
  | key (limit : Option Nat)
  /-- Behind the name of the limit. -/
  | limitColon
  /-- Behind the colon of the limit. -/
  | limitValue
  /-- Behind another name. -/
  | otherColon (limit : Option Nat)
  /-- Behind the colon of another member. -/
  | otherValue (skip : Skip) (limit : Option Nat)
  /-- Behind the value of a member. -/
  | commaOrClose (limit : Option Nat)
  /-- Behind the bracket that closes the whole value. -/
  | done (options : Options)

namespace Reader

/-- The fault of an item that begins a value of a kind that is not wanted there. -/
def misplaced : Item → Fault
  | .string pieces flaw =>
    match Json.decode flaw pieces with
    | .ok _ => .unsuitable
    | .error fault => fault
  | .number number => number.misplaced
  | .brokenNumber atEnd | .brokenWord atEnd => .brokenAt atEnd
  | .word | .openArray | .openObject => .unsuitable
  | _ => .malformed

/-- Reads a limit. -/
def limit : Item → Except Fault Nat
  | .number number => number.count
  | item => .error (misplaced item)

/-- The options with a limit, if one was found. -/
def options (limit : Option Nat) : Options :=
  match limit with
  | some depth => ⟨depth⟩
  | none => {}

/-- Reads a name. -/
def name (found : Option Nat) : Item → Except Fault Reader
  | .string pieces flaw =>
    match Json.decode flaw pieces with
    | .error fault => .error fault
    | .ok text =>
      if String.ofList text = limitKey then
        if found.isSome then .error .unsuitable else .ok limitColon
      else .ok (otherColon found)
  | _ => .error .malformed

/-- The state after an item of a value that is passed over. -/
def passed (found : Option Nat) (skip : Skip) : Reader :=
  if skip = .finished then commaOrClose found else otherValue skip found

/-- Reads an item. -/
def step : Reader → Item → Except Fault Reader
  | start, .openArray => .ok arrayItem
  | start, .openObject => .ok keyOrClose
  | start, item => .error (misplaced item)
  | arrayItem, .closeArray => .ok (done {})
  | arrayItem, item => (limit item).map arrayEnd
  | arrayEnd depth, .closeArray => .ok (done ⟨depth⟩)
  | arrayEnd _, _ => .error .malformed
  | keyOrClose, .closeObject => .ok (done {})
  | keyOrClose, item => name none item
  | key found, item => name found item
  | limitColon, .colon => .ok limitValue
  | limitColon, _ => .error .malformed
  | limitValue, item => (limit item).map fun depth => commaOrClose (some depth)
  | otherColon found, .colon => .ok (otherValue .start found)
  | otherColon _, _ => .error .malformed
  | otherValue skip found, item => (skip.step item).map (passed found)
  | commaOrClose found, .comma => .ok (key found)
  | commaOrClose found, .closeObject => .ok (done (options found))
  | commaOrClose _, _ => .error .malformed
  | done _, _ => .error .malformed

/-- The options that have been read at the end of the text. -/
def finish : Reader → Except Fault Options
  | done options => .ok options
  | _ => .error .truncated

end Reader

/-- The options that items spell. -/
def ofItems (items : List Item) : Except Fault Options :=
  items.foldlM Reader.step .start >>= Reader.finish

/-- The options that a JSON text spells. -/
def ofJson (text : String) : Except Fault Options := ofItems (Json.items text.toList)

end Options

end BlockLanguage
