/-
**Words, and what a word may be used for.**

A word is an ASCII letter followed by ASCII letters, digits and `-`. Ten words are keywords and
sixteen spell conditions; every other word is an identifier and may name a program, an instruction
or what a call calls. `Identifier` is the type of those texts. Five identifiers name the
instructions that are built in and cannot be defined.
-/

import BlockLanguage.Condition

namespace BlockLanguage

namespace Word

/-- The keywords, in the order in which the grammar brings them. -/
def keywords : List String :=
  ["PROGRAM", "IS", "INSTRUCTION", "BEGIN", "END", "IF", "THEN", "ELSE", "WHILE", "DO"]

/-- The instructions that are built in. -/
def primitives : List String := ["move", "turnleft", "turnright", "infect", "skip"]

/-- Whether a text is a keyword; letter case matters. -/
def isKeyword (text : String) : Bool := keywords.contains text

/-- Whether a text spells a condition exactly. -/
def isCondition (text : String) : Bool := (Condition.ofText? text).isSome

/-- Whether a text names an instruction that is built in. -/
def isPrimitive (text : String) : Bool := primitives.contains text

/-- Whether a character may stand in a word behind its first letter. -/
def continuesWord (c : Char) : Bool := c.isAlphanum || c = '-'

/-- Whether a run of characters has the shape of a word. -/
def isWordShaped : List Char → Bool
  | [] => false
  | c :: rest => c.isAlpha && rest.all continuesWord

/-- Whether a text is a word. -/
def isWord (text : String) : Bool := isWordShaped text.toList

/-- Whether a text is a word that is neither a keyword nor a condition. -/
def isIdentifier (text : String) : Bool := isWord text && !isKeyword text && !isCondition text

theorem isWord_of_keyword {text : String} (listed : text ∈ keywords) : isWord text = true := by
  revert text
  decide +kernel

/-- A word has a first character. -/
theorem toList_ne_nil {text : String} (word : isWord text = true) : text.toList ≠ [] := by
  intro empty
  rw [isWord, empty] at word
  cases word

/-- Every character of a word may stand behind its first letter. -/
theorem continuesWord_of_mem {text : String} (word : isWord text = true) {c : Char}
    (member : c ∈ text.toList) : continuesWord c = true := by
  rw [isWord] at word
  cases chars : text.toList with
  | nil =>
    rw [chars] at member
    cases member
  | cons first more =>
    rw [chars, isWordShaped, Bool.and_eq_true, List.all_eq_true] at word
    rw [chars] at member
    rcases List.mem_cons.mp member with rfl | behind
    · simp [continuesWord, Char.isAlphanum, word.1]
    · exact word.2 c behind

/-- Texts that all are words. -/
def AreWords (texts : List String) : Prop := ∀ text ∈ texts, isWord text = true

@[simp] theorem areWords_nil : AreWords [] := List.forall_mem_nil _

@[simp] theorem areWords_cons_iff {text : String} {more : List String} :
    AreWords (text :: more) ↔ isWord text = true ∧ AreWords more :=
  List.forall_mem_cons

@[simp] theorem areWords_append_iff {texts more : List String} :
    AreWords (texts ++ more) ↔ AreWords texts ∧ AreWords more :=
  List.forall_mem_append

theorem areWords_flatMap_iff {α : Type} {items : List α} {texts : α → List String} :
    AreWords (items.flatMap texts) ↔ ∀ item ∈ items, AreWords (texts item) := by
  unfold AreWords
  simp only [List.mem_flatMap]
  constructor
  · intro each item member text inside
    exact each text ⟨item, member, inside⟩
  · rintro each text ⟨item, member, inside⟩
    exact each item member text inside

end Word

@[simp] theorem Condition.isWord_text (condition : Condition) :
    Word.isWord condition.text = true := by
  cases condition <;> decide +kernel

/-- A text that may name a program, an instruction or what a call calls. -/
structure Identifier where
  text : String
  valid : Word.isIdentifier text = true
  deriving DecidableEq

namespace Identifier

/-- The identifier that a text is, if it is one. -/
def ofText? (text : String) : Option Identifier :=
  if valid : Word.isIdentifier text = true then some ⟨text, valid⟩ else none

/-- An identifier is its text. -/
theorem ext {first second : Identifier} (same : first.text = second.text) : first = second := by
  cases first; cases second; cases same; rfl

@[simp] theorem isWord_text (name : Identifier) : Word.isWord name.text = true := by
  have valid := name.valid
  unfold Word.isIdentifier at valid
  simp only [Bool.and_eq_true] at valid
  exact valid.1.1

/-- Every identifier is read from its own text. -/
@[simp] theorem ofText?_text (name : Identifier) : ofText? name.text = some name := by
  simp [ofText?, name.valid]

/-- A text is read as an identifier exactly if that identifier has this text. -/
theorem ofText?_eq_some_iff {text : String} {name : Identifier} :
    ofText? text = some name ↔ name.text = text := by
  constructor
  · intro read
    unfold ofText? at read
    split at read
    · cases read; rfl
    · cases read
  · rintro rfl
    exact ofText?_text name

/-- Exactly the texts that are no identifiers are refused. -/
theorem ofText?_eq_none_iff {text : String} :
    ofText? text = none ↔ Word.isIdentifier text = false := by
  simp [ofText?]

end Identifier

end BlockLanguage
