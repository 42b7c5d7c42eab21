/-
**The conditions of IF and WHILE.**

The vocabulary is closed: sixteen conditions, each with one surface text. `parse?` is the lenient
reading of a condition's name, in which letter case does not matter and `_` may stand for `-`; a
source text spells a condition exactly.
-/

namespace BlockLanguage

/-- A test that an IF or a WHILE makes, in the order of the vocabulary. -/
inductive Condition
  | nextIsEmpty
  | nextIsNotEmpty
  | nextIsWall
  | nextIsNotWall
  | nextIsFriend
  | nextIsNotFriend
  | nextIsEnemy
  | nextIsNotEnemy
  | random
  | always
  | less
  | lessOrEqual
  | equal
  | notEqual
  | greater
  | greaterOrEqual
  deriving DecidableEq, Ord

namespace Condition

/-- Every condition, in the order of the vocabulary. -/
def all : List Condition :=
  [nextIsEmpty, nextIsNotEmpty, nextIsWall, nextIsNotWall, nextIsFriend, nextIsNotFriend,
   nextIsEnemy, nextIsNotEnemy, random, always, less, lessOrEqual, equal, notEqual, greater,
   greaterOrEqual]

/-- The text of a condition in a source text. -/
def text : Condition → String
  | nextIsEmpty => "next-is-empty"
  | nextIsNotEmpty => "next-is-not-empty"
  | nextIsWall => "next-is-wall"
  | nextIsNotWall => "next-is-not-wall"
  | nextIsFriend => "next-is-friend"
  | nextIsNotFriend => "next-is-not-friend"
  | nextIsEnemy => "next-is-enemy"
  | nextIsNotEnemy => "next-is-not-enemy"
  | random => "random"
  | always => "true"
  | less => "x-is-less-than-y"
  | lessOrEqual => "x-is-less-than-or-equal-to-y"
  | equal => "x-is-equal-to-y"
  | notEqual => "x-is-not-equal-to-y"
  | greater => "x-is-greater-than-y"
  | greaterOrEqual => "x-is-greater-than-or-equal-to-y"

/-- The condition that a source text spells exactly so. -/
def ofText? (text : String) : Option Condition := all.find? fun condition => condition.text = text

/-- A source text spells a condition exactly by its text. -/
theorem ofText?_eq_some_iff {text : String} {condition : Condition} :
    ofText? text = some condition ↔ condition.text = text := by
  constructor
  · intro found
    simpa using List.find?_some found
  · rintro rfl
    cases condition <;> decide

/-- The character of a surface text that a character of a lenient spelling stands for. -/
def normalChar (c : Char) : Char := if c = '_' then '-' else c.toLower

/-- The condition that a text names, whatever its letter case and with `_` read as `-`. -/
def parse? (text : String) : Option Condition := ofText? (text.map normalChar)

end Condition

/-- The refusal of a text that names no condition. -/
structure UnknownCondition where
  text : String
  deriving DecidableEq

/-- The wording of the refusal. -/
def UnknownCondition.message (unknown : UnknownCondition) : String :=
  s!"'{unknown.text}' is not a BL condition"

/-- Reads a condition's name leniently, or says which text names none. -/
def Condition.parse (text : String) : Except UnknownCondition Condition :=
  match Condition.parse? text with
  | some condition => .ok condition
  | none => .error ⟨text⟩

end BlockLanguage
