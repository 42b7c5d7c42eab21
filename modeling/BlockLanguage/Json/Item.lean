/-
**The items of a JSON text.**

A text is read as a list of items: brackets, colons, commas, strings, numbers and the words for
truth values and null, with blanks between them dropped. An item that is broken off or wrong is the
last one of the list and says what is wrong with it; the list just ends where the text does. Whether
any item is allowed where it stands is a question for whoever reads the list.
-/

import BlockLanguage.Json.Number

namespace BlockLanguage.Json

/-! ### Strings -/

/-- A character of a string, or one unit of UTF-16 that is written as such. -/
inductive Piece
  | char (c : Char)
  | unit (value : Nat)
  deriving DecidableEq

/-- A string as it is written: its pieces, what is wrong behind them if the string is not closed
there, and the text behind it. -/
structure Written where
  pieces : List Piece
  flaw : Option Fault
  rest : List Char

namespace Written

/-- A string that is not closed. -/
def broken (fault : Fault) : Written := ⟨[], some fault, []⟩

/-- A string with one more piece in front. -/
def cons (piece : Piece) (written : Written) : Written :=
  { written with pieces := piece :: written.pieces }

end Written

/-- The value of a hexadecimal digit. -/
def hexDigit? (c : Char) : Option Nat :=
  if c.isDigit then some (c.toNat - '0'.toNat)
  else if 'a' ≤ c && c ≤ 'f' then some (c.toNat - 'a'.toNat + 10)
  else if 'A' ≤ c && c ≤ 'F' then some (c.toNat - 'A'.toNat + 10)
  else none

/-- The number that hexadecimal digits spell. -/
def hexValue? (digits : List Char) : Option Nat :=
  digits.foldlM (fun value c => (hexDigit? c).map (16 * value + ·)) 0

/-- The character that a letter behind a backslash stands for. -/
def unescape? (c : Char) : Option Char :=
  if c = '"' || c = '\\' || c = '/' then some c
  else if c = 'b' then some (Char.ofNat 0x08)
  else if c = 'f' then some (Char.ofNat 0x0C)
  else if c = 'n' then some '\n'
  else if c = 'r' then some '\r'
  else if c = 't' then some '\t'
  else none

/-- How many bytes a text takes up in UTF-8. -/
def byteCount (text : List Char) : Nat := text.foldr (fun c bytes => c.utf8Size + bytes) 0

/-- The string whose opening quote stands before a text. Four digits of a unit are four bytes, and
a text with fewer bytes left ends too early. -/
def scanString : List Char → Written
  | [] => .broken .truncated
  | '"' :: rest => ⟨[], none, rest⟩
  | '\\' :: 'u' :: a :: b :: c :: d :: rest =>
    match hexValue? [a, b, c, d] with
    | some value => (scanString rest).cons (.unit value)
    | none => .broken .malformed
  | '\\' :: 'u' :: rest => .broken (.brokenAt (byteCount rest < 4))
  | ['\\'] => .broken .truncated
  | '\\' :: c :: rest =>
    match unescape? c with
    | some plain => (scanString rest).cons (.char plain)
    | none => .broken .malformed
  | c :: rest =>
    if c.toNat < 0x20 then .broken .malformed else (scanString rest).cons (.char c)

/-- The characters that pieces spell. Two units in a row that are a high and a low surrogate are one
character; a surrogate that stands alone is none, and is found before a flaw further on. -/
def decode (flaw : Option Fault) : List Piece → Except Fault (List Char)
  | [] =>
    match flaw with
    | none => .ok []
    | some fault => .error fault
  | .char c :: rest => (decode flaw rest).map (c :: ·)
  | .unit value :: rest =>
    if 0xDC00 ≤ value && value < 0xE000 then .error .malformed
    else if 0xD800 ≤ value && value < 0xDC00 then
      match rest with
      | .unit low :: behind =>
        if 0xDC00 ≤ low && low < 0xE000 then
          (decode flaw behind).map
            (Char.ofNat (0x10000 + 0x400 * (value - 0xD800) + (low - 0xDC00)) :: ·)
        else .error .malformed
      | .char _ :: _ => .error .malformed
      | [] => .error (flaw.getD .malformed)
    else (decode flaw rest).map (Char.ofNat value :: ·)

/-! ### Items -/

/-- An item of a JSON text. -/
inductive Item
  | openArray
  | closeArray
  | openObject
  | closeObject
  | colon
  | comma
  | string (pieces : List Piece) (flaw : Option Fault)
  | number (number : Number)
  | brokenNumber (atEnd : Bool)
  | word
  | brokenWord (atEnd : Bool)
  | unknown
  deriving DecidableEq

/-- Whether a character is a blank between items. -/
def isBlank (c : Char) : Bool := c = ' ' || c = '\t' || c = '\n' || c = '\r'

/-- The word whose remaining letters are given, and the text behind it. -/
def scanWord : (letters text : List Char) → Item × List Char
  | [], text => (.word, text)
  | _ :: _, [] => (.brokenWord true, [])
  | letter :: letters, c :: rest =>
    if c = letter then scanWord letters rest else (.brokenWord false, [])

/-- The number behind its sign, and the text behind it. -/
def scanNumber (negative : Bool) (text : List Char) : Item × List Char :=
  match Number.scan negative text with
  | .ok (number, rest) => (.number number, rest)
  | .error atEnd => (.brokenNumber atEnd, [])

/-- The item that a character is by itself. -/
def mark? : Char → Option Item
  | '[' => some .openArray
  | ']' => some .closeArray
  | '\x7b' => some .openObject
  | '\x7d' => some .closeObject
  | ':' => some .colon
  | ',' => some .comma
  | _ => none

/-- The letters behind the first one of a word. -/
def letters? : Char → Option (List Char)
  | 'n' => some ['u', 'l', 'l']
  | 't' => some ['r', 'u', 'e']
  | 'f' => some ['a', 'l', 's', 'e']
  | _ => none

/-- The item that a character begins, and the text behind it. -/
def scanItem (c : Char) (rest : List Char) : Item × List Char :=
  match mark? c, letters? c with
  | some item, _ => (item, rest)
  | none, some letters => scanWord letters rest
  | none, none =>
    if c = '"' then
      let written := scanString rest
      (.string written.pieces written.flaw, written.rest)
    else if c = '-' then scanNumber true rest
    else if c.isDigit then scanNumber false (c :: rest)
    else (.unknown, [])

/-! ### Every item takes a character -/

private theorem length_scanString (text : List Char) :
    (scanString text).rest.length ≤ text.length := by
  fun_induction scanString text with
  | case1 => exact Nat.le_refl _
  | case2 rest => exact Nat.le_succ _
  | case3 a b c d rest value found ih =>
    simp only [Written.cons, List.length_cons]
    omega
  | case4 | case5 | case6 | case8 | case9 => exact Nat.zero_le _
  | case7 c rest _ _ plain found ih =>
    simp only [Written.cons, List.length_cons]
    omega
  | case10 c rest _ _ _ _ _ ih =>
    simp only [Written.cons, List.length_cons]
    omega

private theorem length_scanWord (letters text : List Char) :
    (scanWord letters text).2.length ≤ text.length := by
  fun_induction scanWord letters text with
  | case1 => exact Nat.le_refl _
  | case2 => exact Nat.le_refl _
  | case3 letter letters rest ih => exact Nat.le_succ_of_le ih
  | case4 => exact Nat.zero_le _

private theorem length_scanNumber (negative : Bool) {text : List Char} (ahead : text ≠ []) :
    (scanNumber negative text).2.length < text.length := by
  unfold scanNumber
  split
  · next read => exact Number.length_scan read
  · exact List.length_pos_iff.mpr ahead

private theorem length_scanItem (c : Char) (rest : List Char) :
    (scanItem c rest).2.length ≤ rest.length := by
  unfold scanItem
  split
  · exact Nat.le_refl _
  · exact length_scanWord _ rest
  · split
    · exact length_scanString rest
    · split
      · rcases rest with _ | ⟨first, more⟩
        · exact Nat.le_refl _
        · exact Nat.le_of_lt (length_scanNumber true (List.cons_ne_nil first more))
      · split
        · exact Nat.le_of_lt_succ (length_scanNumber false (List.cons_ne_nil c rest))
        · exact Nat.zero_le _

/-- The items of a JSON text. -/
def items : List Char → List Item
  | [] => []
  | c :: rest =>
    if isBlank c then items rest else (scanItem c rest).1 :: items (scanItem c rest).2
termination_by text => text.length
decreasing_by
  · exact Nat.lt_succ_self _
  · exact Nat.lt_succ_of_le (length_scanItem c rest)

end BlockLanguage.Json
