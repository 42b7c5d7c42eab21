/-
**JSON values and their two written forms.**

An object is the list of its members in the order in which they are written. The compact form has
no blanks outside strings; the pretty form puts every item on a line of its own, two columns deeper
than its container, and a blank behind the colon of a member. Both escape the same characters:
quotes, backslashes and the characters below U+0020.
-/

namespace BlockLanguage

/-- A JSON value with integers as its numbers. -/
inductive Json
  | null
  | bool (value : Bool)
  | num (value : Int)
  | str (value : String)
  | arr (items : List Json)
  | obj (members : List (String × Json))

namespace Json

/-- How a character is written inside a string. -/
def escape (c : Char) : List Char :=
  if c = '"' then ['\\', '"']
  else if c = '\\' then ['\\', '\\']
  else if c.toNat = 0x08 then ['\\', 'b']
  else if c = '\t' then ['\\', 't']
  else if c = '\n' then ['\\', 'n']
  else if c.toNat = 0x0C then ['\\', 'f']
  else if c = '\r' then ['\\', 'r']
  else if c.toNat < 0x20 then
    ['\\', 'u', '0', '0', (c.toNat / 16).digitChar, (c.toNat % 16).digitChar]
  else [c]

/-- The written form of a string. -/
def quote (text : String) : String :=
  "\"" ++ String.ofList (text.toList.flatMap escape) ++ "\""

/-! ### The compact form -/

mutual

/-- The compact form of a value. -/
def text : Json → String
  | null => "null"
  | bool value => if value then "true" else "false"
  | num value => toString value
  | str value => quote value
  | arr items => "[" ++ ",".intercalate (itemTexts items) ++ "]"
  | obj members => "\x7b" ++ ",".intercalate (memberTexts members) ++ "\x7d"

/-- The compact forms of the items of an array. -/
def itemTexts : List Json → List String
  | [] => []
  | item :: more => item.text :: itemTexts more

/-- The compact forms of the members of an object. -/
def memberTexts : List (String × Json) → List String
  | [] => []
  | (key, value) :: more => (quote key ++ ":" ++ value.text) :: memberTexts more

end

/-! ### The pretty form -/

/-- The start of a line at a depth. -/
def lineStart (depth : Nat) : String := "\n" ++ String.ofList (List.replicate (2 * depth) ' ')

/-- Items between brackets, each on a line of its own; without items the brackets stand alone. -/
def spread (opening closing : String) (depth : Nat) (items : List (List String)) : List String :=
  if items.isEmpty then [opening, closing]
  else
    opening :: lineStart (depth + 1) :: [",", lineStart (depth + 1)].intercalate items ++
      [lineStart depth, closing]

mutual

/-- The pieces of the pretty form of a value whose first line begins at a depth. -/
def prettyAt (depth : Nat) : Json → List String
  | arr items => spread "[" "]" depth (prettyItems (depth + 1) items)
  | obj members => spread "\x7b" "\x7d" depth (prettyMembers (depth + 1) members)
  | leaf => [leaf.text]

/-- The pieces of the pretty forms of the items of an array. -/
def prettyItems (depth : Nat) : List Json → List (List String)
  | [] => []
  | item :: more => item.prettyAt depth :: prettyItems depth more

/-- The pieces of the pretty forms of the members of an object. -/
def prettyMembers (depth : Nat) : List (String × Json) → List (List String)
  | [] => []
  | (key, value) :: more =>
    ((quote key ++ ": ") :: value.prettyAt depth) :: prettyMembers depth more

end

/-- The pretty form of a value. -/
def pretty (value : Json) : String := String.join (value.prettyAt 0)

/-! ### The forms of items and members, one by one -/

theorem itemTexts_eq_map (items : List Json) : itemTexts items = items.map text := by
  induction items with
  | nil => rw [itemTexts, List.map_nil]
  | cons item more ih => rw [itemTexts, ih, List.map_cons]

theorem memberTexts_eq_map (members : List (String × Json)) :
    memberTexts members = members.map fun member => quote member.1 ++ ":" ++ member.2.text := by
  induction members with
  | nil => rw [memberTexts, List.map_nil]
  | cons member more ih => rw [memberTexts, ih, List.map_cons]

theorem prettyItems_eq_map (depth : Nat) (items : List Json) :
    prettyItems depth items = items.map (prettyAt depth) := by
  induction items with
  | nil => rw [prettyItems, List.map_nil]
  | cons item more ih => rw [prettyItems, ih, List.map_cons]

theorem prettyMembers_eq_map (depth : Nat) (members : List (String × Json)) :
    prettyMembers depth members =
      members.map fun member => (quote member.1 ++ ": ") :: member.2.prettyAt depth := by
  induction members with
  | nil => rw [prettyMembers, List.map_nil]
  | cons member more ih => rw [prettyMembers, ih, List.map_cons]

end Json

end BlockLanguage
