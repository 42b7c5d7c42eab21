/-
**Which texts are words, and which of them spell conditions.**

Every word is a keyword, a condition or an identifier, and never two of these; what is no word is
none of them. A condition's name may be read leniently: then all texts of the same length count that
differ from the surface text only by letter case and by `_` in place of `-`. Among these the surface
text alone is a condition. Another one is an identifier, unless it has a `_`, which no word has.

* `Word.count_classes`: how many of the three classes a text is in.
* `TokenKind.ofLexeme_eq_iff`: the kind of a lexeme says what its text is.
* `Condition.Variant`, `Condition.parse?_eq_some_iff`: what the lenient reading accepts.
* `Condition.Variant.isIdentifier_iff`: what a text is that is read leniently only.
-/

import Mathlib
import BlockLanguage.Proofs.Tokenization

namespace BlockLanguage

/-! ### The classes of words -/

namespace Word

variable {text : String}

theorem isCondition_iff :
    isCondition text = true ↔ ∃ condition : Condition, condition.text = text := by
  rw [isCondition, Option.isSome_iff_exists]
  exact exists_congr fun condition => Condition.ofText?_eq_some_iff

/-- No condition is spelled like a keyword. -/
theorem isKeyword_of_isCondition (spells : isCondition text = true) : isKeyword text = false := by
  obtain ⟨condition, rfl⟩ := isCondition_iff.mp spells
  cases condition <;> decide

/-- What is no word is in none of the classes, and no word is in two of them. -/
theorem class_cases (text : String) :
    isWord text = false ∧ isKeyword text = false ∧ isCondition text = false ∨
      isWord text = true ∧ isKeyword text = true ∧ isCondition text = false ∨
      isWord text = true ∧ isKeyword text = false ∧ isCondition text = true ∨
      isWord text = true ∧ isKeyword text = false ∧ isCondition text = false := by
  cases spells : isCondition text with
  | true => simp [isWord_of_isCondition spells, isKeyword_of_isCondition spells]
  | false =>
    cases keyword : isKeyword text with
    | true => simp [isWord_of_isKeyword keyword]
    | false => cases isWord text <;> simp

/-- **Every word is in one of the three classes**, and what is no word is in none. -/
theorem count_classes (text : String) :
    [isKeyword text, isCondition text, isIdentifier text].count true =
      if isWord text then 1 else 0 := by
  rcases class_cases text with ⟨word, keyword, spells⟩ | ⟨word, keyword, spells⟩ |
      ⟨word, keyword, spells⟩ | ⟨word, keyword, spells⟩ <;>
    simp [isIdentifier, word, keyword, spells]

end Word

namespace TokenKind

/-- What a kind says about the text of a lexeme. -/
def Suits (text : String) : TokenKind → Prop
  | keyword => Word.isKeyword text = true
  | condition => Word.isCondition text = true
  | identifier => Word.isIdentifier text = true
  | endOfInput => text = endOfInputLexeme
  | error => Word.isWord text = false ∧ text ≠ endOfInputLexeme

/-- **A lexeme has the one kind that suits its text.** -/
theorem ofLexeme_eq_iff {text : String} {kind : TokenKind} :
    ofLexeme text = kind ↔ kind.Suits text := by
  by_cases mark : text = endOfInputLexeme
  · subst mark
    cases kind <;> unfold Suits <;> decide +kernel
  · rcases Word.class_cases text with ⟨word, keyword, spells⟩ | ⟨word, keyword, spells⟩ |
        ⟨word, keyword, spells⟩ | ⟨word, keyword, spells⟩ <;>
      cases kind <;> simp [ofLexeme, Suits, Word.isIdentifier, mark, word, keyword, spells]

end TokenKind

/-! ### Lenient spellings -/

namespace Condition

/-- What may be written in place of a character: its capital, its small letter, and `_` in place
of `-`. A character that is no ASCII letter is its own capital and its own small letter. -/
inductive WrittenFor : Char → Char → Prop
  | capital (c : Char) : WrittenFor c.toUpper c
  | small (c : Char) : WrittenFor c.toLower c
  | underscore : WrittenFor '_' '-'

/-- A text is as long as the surface text of a condition, and differs from it only by letter case
and by `_` in place of `-`. -/
structure Variant (condition : Condition) (text : String) : Prop where
  length_eq : text.length = condition.text.length
  written : ∀ pair ∈ text.toList.zip condition.text.toList, WrittenFor pair.1 pair.2

/-- Whether a character is one of those that surface texts consist of. -/
def isSurface (c : Char) : Bool := c.isLower || c = '-'

theorem isSurface_of_mem {condition : Condition} {c : Char} (member : c ∈ condition.text.toList) :
    isSurface c = true := by
  have all : condition.text.toList.all isSurface = true := by cases condition <;> decide +kernel
  exact List.all_eq_true.mp all c member

theorem toLower_of_isSurface {c : Char} (surface : isSurface c = true) : c.toLower = c := by
  refine Char.toLower_eq_of_not_isUpper fun capital => ?_
  rw [isSurface, Bool.or_eq_true, decide_eq_true_eq] at surface
  rcases surface with small | rfl
  · exact Char.not_isLower_of_isUpper capital small
  · exact absurd capital (by decide)

theorem ne_underscore_of_isSurface {c : Char} (surface : isSurface c = true) : c ≠ '_' := by
  rintro rfl
  exact absurd surface (by decide)

section Characters

variable {written meant : Char}

/-- What is written in place of a letter is a letter. -/
theorem WrittenFor.isAlpha (stands : WrittenFor written meant) (letter : meant.isAlpha = true) :
    written.isAlpha = true := by
  cases stands with
  | capital => rw [Char.isAlpha_toUpper_eq_isAlpha, letter]
  | small => rw [Char.isAlpha_toLower_eq_isAlpha, letter]
  | underscore => exact absurd letter (by decide)

variable (surface : isSurface meant = true)
include surface

/-- The lenient reading undoes what may be written in place of a character of a surface text. -/
theorem writtenFor_iff : WrittenFor written meant ↔ normalChar written = meant := by
  have small := toLower_of_isSurface surface
  constructor
  · intro stands
    cases stands with
    | capital =>
      have apart : meant.toUpper ≠ '_' := by
        intro same
        have lower := congrArg Char.toLower same
        rw [Char.toLower_toUpper_eq_toLower, small] at lower
        exact ne_underscore_of_isSurface surface lower
      rw [normalChar, if_neg apart, Char.toLower_toUpper_eq_toLower, small]
    | small => rw [normalChar, small, if_neg (ne_underscore_of_isSurface surface), small]
    | underscore => rfl
  · intro normal
    by_cases underscore : written = '_'
    · rw [normalChar, if_pos underscore] at normal
      rw [← normal, underscore]
      exact .underscore
    rw [normalChar, if_neg underscore] at normal
    -- What is read is the small letter of what is written, so only its case can differ.
    by_cases capital : written.isUpper = true
    · have upper : meant.toUpper = written := by
        rw [← normal, Char.toUpper_toLower_eq_toUpper,
          Char.toUpper_eq_of_not_isLower (Char.not_isLower_of_isUpper capital)]
      rw [← upper]
      exact .capital meant
    · have lower : meant.toLower = written := by
        rw [small, ← normal, Char.toLower_eq_of_not_isUpper capital]
      rw [← lower]
      exact .small meant

/-- What is written in place of a character of a surface text goes on in a word, `_` apart. -/
theorem WrittenFor.continuesWord (stands : WrittenFor written meant) (other : written ≠ '_') :
    Word.continuesWord written = true := by
  have letter : meant.isAlpha = true ∨ meant = '-' := by
    rw [isSurface, Bool.or_eq_true, decide_eq_true_eq] at surface
    refine surface.imp_left fun small => ?_
    rw [Char.isAlpha, small, Bool.or_true]
  rcases letter with letter | rfl
  · rw [Word.continuesWord, Char.isAlphanum, stands.isAlpha letter]
    rfl
  · cases stands with
    | capital => decide
    | small => decide
    | underscore => exact absurd rfl other

end Characters

variable {condition : Condition} {text : String}

/-- **The lenient reading of a text finds a condition exactly if the text is a variant of its
surface text.** -/
theorem parse?_eq_some_iff : parse? text = some condition ↔ condition.Variant text := by
  have each : ∀ pair ∈ text.toList.zip condition.text.toList,
      (WrittenFor pair.1 pair.2 ↔ normalChar pair.1 = pair.2) := fun pair member =>
    writtenFor_iff (isSurface_of_mem (List.of_mem_zip member).2)
  have normal : parse? text = some condition ↔
      List.Forall₂ (fun written meant => normalChar written = meant) text.toList
        condition.text.toList := by
    rw [parse?, ofText?_eq_some_iff, ← String.toList_inj, String.toList_map, eq_comm,
      ← List.forall₂_eq_eq_eq, List.forall₂_map_left_iff]
  rw [normal, List.forall₂_iff_zip]
  constructor
  · rintro ⟨length, written⟩
    exact ⟨length, fun pair member => (each pair member).mpr (written member)⟩
  · rintro ⟨length, written⟩
    exact ⟨length, fun member => (each _ member).mp (written _ member)⟩

/-- Letter case and `_` may be mixed. -/
example : parse? "X_Is-less_THAN-y" = some .less := by decide +kernel

theorem parse?_text (condition : Condition) : parse? condition.text = some condition := by
  cases condition <;> decide +kernel

/-- The exact spellings are those that the lenient reading gives back unchanged. -/
theorem isCondition_iff_parse? :
    Word.isCondition text = true ↔
      ∃ condition, parse? text = some condition ∧ condition.text = text := by
  rw [Word.isCondition_iff]
  refine exists_congr fun condition => ⟨?_, And.right⟩
  rintro rfl
  exact ⟨parse?_text condition, rfl⟩

namespace Variant

variable (variant : condition.Variant text)
include variant

/-- Every character of a variant is written in place of one of the surface text. -/
theorem exists_written {c : Char} (member : c ∈ text.toList) :
    ∃ meant ∈ condition.text.toList, WrittenFor c meant := by
  have paired : (text.toList.zip condition.text.toList).map Prod.fst = text.toList :=
    List.map_fst_zip (Nat.le_of_eq variant.length_eq)
  rw [← paired] at member
  obtain ⟨pair, inside, rfl⟩ := List.mem_map.mp member
  exact ⟨pair.2, (List.of_mem_zip inside).2, variant.written pair inside⟩

/-- A variant begins with a letter. -/
theorem exists_toList_eq :
    ∃ first rest, text.toList = first :: rest ∧ first.isAlpha = true := by
  have written := variant.written
  have length : text.toList.length = condition.text.toList.length := variant.length_eq
  have word := condition.isWord_text
  rw [Word.isWord] at word
  cases surfaceText : condition.text.toList with
  | nil =>
    rw [surfaceText] at word
    cases word
  | cons meant others =>
    rw [surfaceText, Word.isWordShaped, Bool.and_eq_true] at word
    rw [surfaceText] at written length
    cases chars : text.toList with
    | nil =>
      rw [chars] at length
      cases length
    | cons first rest =>
      rw [chars] at written
      exact ⟨first, rest, rfl, (written (first, meant) List.mem_cons_self).isAlpha word.1⟩

/-- A variant is a word exactly if it has no `_`. -/
theorem isWord_iff : Word.isWord text = true ↔ '_' ∉ text.toList := by
  constructor
  · intro word member
    exact absurd (Word.continuesWord_of_mem word member) (by decide)
  · intro none
    have goesOn : ∀ c ∈ text.toList, Word.continuesWord c = true := by
      intro c member
      obtain ⟨meant, inSurface, stands⟩ := variant.exists_written member
      refine stands.continuesWord (isSurface_of_mem inSurface) ?_
      rintro rfl
      exact none member
    obtain ⟨first, rest, chars, letter⟩ := variant.exists_toList_eq
    rw [chars, List.forall_mem_cons] at goesOn
    rw [Word.isWord, chars, Word.isWordShaped, letter, List.all_eq_true.mpr goesOn.2]
    rfl

/-- No keyword is a variant. -/
theorem isKeyword_eq_false : Word.isKeyword text = false := by
  have unread : ∀ keyword ∈ Word.keywords, parse? keyword = none := by decide +kernel
  refine eq_false_of_ne_true fun keyword => ?_
  have read := parse?_eq_some_iff.mpr variant
  rw [unread text (List.contains_iff_mem.mp keyword)] at read
  cases read

/-- A variant other than the surface text is no condition. -/
theorem isCondition_eq_false (other : text ≠ condition.text) : Word.isCondition text = false := by
  refine eq_false_of_ne_true fun spells => ?_
  obtain ⟨found, read, rfl⟩ := isCondition_iff_parse?.mp spells
  rw [parse?_eq_some_iff.mpr variant] at read
  cases read
  exact other rfl

/-- **A variant other than the surface text is an identifier**, unless it has a `_`. -/
theorem isIdentifier_iff (other : text ≠ condition.text) :
    Word.isIdentifier text = true ↔ '_' ∉ text.toList := by
  rw [Word.isIdentifier, variant.isKeyword_eq_false, variant.isCondition_eq_false other,
    ← variant.isWord_iff]
  simp

end Variant

end Condition

end BlockLanguage
