/-
**The grammar of JSON, and the items that its texts are read as.**

* `Spelled text pieces` — the inside of a string, character by character: a character that stands
  for itself, a letter behind a backslash, or a unit of UTF-16 by its four hexadecimal digits.
  `Denotes pieces text` says which text the pieces are, if they are one.
* `NumberText text number` — a number, as it is written.
* `Spells part text items` — the texts of values, and of what stands inside arrays and objects. They
  are the texts of JSON; blanks may stand around every value and every name.
* **`Spells.items_append`** — a text of the grammar is read as its items, whatever ends it.
-/

import BlockLanguage.Json.Skip

namespace BlockLanguage.Json

/-! ### Blanks -/

/-- A text of blanks only. -/
def Blanks (text : List Char) : Prop := ∀ c ∈ text, c ∈ [' ', '\t', '\n', '\r']

/-- A text with blanks around it. -/
def Padded (core text : List Char) : Prop :=
  ∃ before behind, Blanks before ∧ Blanks behind ∧ text = before ++ (core ++ behind)

/-- No blanks at all are blanks, too. -/
theorem blanks_nil : Blanks [] := List.forall_mem_nil _

/-- A text has blanks around it even where there are none. -/
theorem Padded.self (text : List Char) : Padded text text :=
  ⟨[], [], blanks_nil, blanks_nil, (List.append_nil text).symm⟩

/-! ### Strings -/

/-- A character that stands for itself inside a string. -/
def IsPlain (c : Char) : Prop := 0x20 ≤ c.toNat ∧ c ≠ '"' ∧ c ≠ '\\'

/-- The letters that may stand behind a backslash, each with the character that it stands for. -/
def escapes : List (Char × Char) :=
  [('"', '"'), ('\\', '\\'), ('/', '/'), ('b', Char.ofNat 0x08), ('f', Char.ofNat 0x0C),
   ('n', '\n'), ('r', '\r'), ('t', '\t')]

/-- A hexadecimal digit, a small or a capital one, and its value. -/
def IsHexDigit (c : Char) (value : Nat) : Prop :=
  value < 16 ∧ (c = value.digitChar ∨ c = value.digitChar.toUpper)

/-- Four hexadecimal digits, and the number that they spell. -/
inductive UnitText : List Char → Nat → Prop
  | digits {c c' c'' c''' : Char} {n n' n'' n''' : Nat} (first : IsHexDigit c n)
      (second : IsHexDigit c' n') (third : IsHexDigit c'' n'') (fourth : IsHexDigit c''' n''') :
      UnitText [c, c', c'', c'''] (16 * (16 * (16 * n + n') + n'') + n''')

/-- The inside of a string, and its pieces. -/
inductive Spelled : List Char → List Piece → Prop
  | nil : Spelled [] []
  | plain {c : Char} {text : List Char} {pieces : List Piece} (itself : IsPlain c)
      (more : Spelled text pieces) : Spelled (c :: text) (.char c :: pieces)
  | escaped {letter c : Char} {text : List Char} {pieces : List Piece}
      (listed : (letter, c) ∈ escapes) (more : Spelled text pieces) :
      Spelled ('\\' :: letter :: text) (.char c :: pieces)
  | unit {digits text : List Char} {value : Nat} {pieces : List Piece}
      (written : UnitText digits value) (more : Spelled text pieces) :
      Spelled ('\\' :: 'u' :: (digits ++ text)) (.unit value :: pieces)

/-- The text that the pieces of a string are. A character beyond U+FFFF takes two units. -/
inductive Denotes : List Piece → List Char → Prop
  | nil : Denotes [] []
  | char (c : Char) {pieces : List Piece} {text : List Char} (more : Denotes pieces text) :
      Denotes (.char c :: pieces) (c :: text)
  | unit {c : Char} {pieces : List Piece} {text : List Char} (single : c.toNat < 0x10000)
      (more : Denotes pieces text) : Denotes (.unit c.toNat :: pieces) (c :: text)
  | pair {c : Char} {pieces : List Piece} {text : List Char} (double : 0x10000 ≤ c.toNat)
      (more : Denotes pieces text) :
      Denotes (.unit (0xD800 + (c.toNat - 0x10000) / 0x400) ::
        .unit (0xDC00 + (c.toNat - 0x10000) % 0x400) :: pieces) (c :: text)

/-- A text between quotes. -/
def quoted (inside : List Char) : List Char := '"' :: (inside ++ ['"'])

/-! ### Numbers -/

/-- One digit or more. -/
def Digits (text : List Char) : Prop := text ≠ [] ∧ ∀ c ∈ text, c.isDigit = true

/-- The digits of a whole number: a zero stands in front only if it is the only one. -/
def WholeText (text : List Char) : Prop := Digits text ∧ (text.head? = some '0' → text = ['0'])

/-- What may stand behind the whole part of a number: a point with digits. -/
inductive FractionText : List Char → List Char → Prop
  | absent : FractionText [] []
  | present {digits : List Char} (behindPoint : Digits digits) : FractionText ('.' :: digits) digits

/-- What may stand behind that: an exponent, which only a minus makes negative. -/
inductive ExponentText : List Char → Option (Bool × List Char) → Prop
  | absent : ExponentText [] none
  | present {mark : Char} {sign digits : List Char} (letter : mark ∈ ['e', 'E'])
      (signed : sign ∈ [[], ['+'], ['-']]) (behindSign : Digits digits) :
      ExponentText (mark :: (sign ++ digits)) (some (sign = ['-'], digits))

/-- A number, as it is written. -/
inductive NumberText : List Char → Number → Prop
  | parts {sign whole fraction exponent digits : List Char} {power : Option (Bool × List Char)}
      (signed : sign ∈ [[], ['-']]) (front : WholeText whole)
      (middle : FractionText fraction digits) (back : ExponentText exponent power) :
      NumberText (sign ++ (whole ++ (fraction ++ exponent))) ⟨sign = ['-'], whole, digits, power⟩

/-! ### Values -/

/-- The parts of a text that the grammar speaks of: values, the items of an array, and the members
of an object, one of them or all. -/
inductive Part
  | value
  | item
  | items
  | member
  | members

/-- The texts of a part, each with the items that it consists of. -/
inductive Spells : Part → List Char → List Item → Prop
  | word {text : List Char}
      (listed : text ∈ [['n', 'u', 'l', 'l'], ['t', 'r', 'u', 'e'], ['f', 'a', 'l', 's', 'e']]) :
      Spells .value text [.word]
  | number {text : List Char} {number : Number} (written : NumberText text number) :
      Spells .value text [.number number]
  | string {text : List Char} {pieces : List Piece} (inside : Spelled text pieces) :
      Spells .value (quoted text) [.string pieces none]
  | emptyArray {text : List Char} (blank : Blanks text) :
      Spells .value ('[' :: (text ++ [']'])) [.openArray, .closeArray]
  | array {text : List Char} {its : List Item} (inside : Spells .items text its) :
      Spells .value ('[' :: (text ++ [']'])) (.openArray :: (its ++ [.closeArray]))
  | emptyObject {text : List Char} (blank : Blanks text) :
      Spells .value ('\x7b' :: (text ++ ['\x7d'])) [.openObject, .closeObject]
  | object {text : List Char} {its : List Item} (inside : Spells .members text its) :
      Spells .value ('\x7b' :: (text ++ ['\x7d'])) (.openObject :: (its ++ [.closeObject]))
  | item {core text : List Char} {its : List Item} (inside : Spells .value core its)
      (padded : Padded core text) : Spells .item text its
  | lastItem {text : List Char} {its : List Item} (last : Spells .item text its) :
      Spells .items text its
  | nextItem {text more : List Char} {its others : List Item} (first : Spells .item text its)
      (rest : Spells .items more others) :
      Spells .items (text ++ ',' :: more) (its ++ .comma :: others)
  | member {inside name text : List Char} {pieces : List Piece} {its : List Item}
      (spelled : Spelled inside pieces) (padded : Padded (quoted inside) name)
      (value : Spells .item text its) :
      Spells .member (name ++ ':' :: text) (.string pieces none :: .colon :: its)
  | lastMember {text : List Char} {its : List Item} (last : Spells .member text its) :
      Spells .members text its
  | nextMember {text more : List Char} {its others : List Item} (first : Spells .member text its)
      (rest : Spells .members more others) :
      Spells .members (text ++ ',' :: more) (its ++ .comma :: others)

/-! ### Reading strings -/

theorem unescape?_of_mem {letter c : Char} (listed : (letter, c) ∈ escapes) :
    letter ≠ 'u' ∧ unescape? letter = some c := by
  have each : ∀ entry ∈ escapes, entry.1 ≠ 'u' ∧ unescape? entry.1 = some entry.2 := by decide
  exact each _ listed

theorem hexDigit?_of_isHexDigit {c : Char} {value : Nat} (digit : IsHexDigit c value) :
    hexDigit? c = some value := by
  obtain ⟨small, rfl | rfl⟩ := digit
  · revert value
    decide
  · revert value
    decide

theorem hexValue?_of_unitText {digits : List Char} {value : Nat}
    (written : UnitText digits value) : hexValue? digits = some value := by
  obtain ⟨first, second, third, fourth⟩ := written
  simp [hexValue?, hexDigit?_of_isHexDigit first, hexDigit?_of_isHexDigit second,
    hexDigit?_of_isHexDigit third, hexDigit?_of_isHexDigit fourth]

/-- A string is read up to the quote that closes it. -/
theorem Spelled.scanString_append {text : List Char} {pieces : List Piece}
    (spelled : Spelled text pieces) (rest : List Char) :
    scanString (text ++ '"' :: rest) = ⟨pieces, none, rest⟩ := by
  induction spelled with
  | nil => simp [scanString]
  | plain itself more ih =>
    obtain ⟨visible, noQuote, noBackslash⟩ := itself
    rw [List.cons_append, scanString, ih]
    · simp [Written.cons, Nat.not_lt.mpr visible]
    all_goals simp_all
  | escaped listed more ih =>
    obtain ⟨noUnit, plain⟩ := unescape?_of_mem listed
    rw [List.cons_append, List.cons_append, scanString, plain]
    · simp [Written.cons, ih]
    all_goals simp_all
  | unit written more ih =>
    have value := hexValue?_of_unitText written
    obtain ⟨first, second, third, fourth⟩ := written
    simp [scanString, value, ih, Written.cons]

/-- A character is no surrogate, and not beyond U+10FFFF. -/
private theorem toNat_cases (c : Char) :
    c.toNat < 0xD800 ∨ 0xE000 ≤ c.toNat ∧ c.toNat < 0x110000 := by
  rcases c.valid with low | ⟨high, bounded⟩
  · exact .inl low
  · exact .inr ⟨high, bounded⟩

/-- The pieces of a text are decoded to it. -/
theorem Denotes.decode_eq {pieces : List Piece} {text : List Char} (denotes : Denotes pieces text) :
    decode none pieces = .ok text := by
  induction denotes with
  | nil => rfl
  | char c more ih => rw [decode, ih, Except.map]
  | @unit c pieces text single more ih =>
    have range := toNat_cases c
    rw [decode.eq_def]
    dsimp only
    rw [if_neg (by simp; omega), if_neg (by simp; omega), ih, Except.map, Char.ofNat_toNat]
  | @pair c pieces text double more ih =>
    have range := toNat_cases c
    have whole : 0x10000 + 0x400 * (0xD800 + (c.toNat - 0x10000) / 0x400 - 0xD800) +
        (0xDC00 + (c.toNat - 0x10000) % 0x400 - 0xDC00) = c.toNat := by omega
    rw [decode, if_neg (by simp; omega), if_pos (by simp; omega), if_pos (by simp; omega), ih,
      whole, Except.map, Char.ofNat_toNat]

/-! ### Reading numbers -/

/-- A text that does not go on with a number in front of it. -/
def Ends (rest : List Char) : Prop :=
  ∀ c, rest.head? = some c → c.isDigit = false ∧ c ∉ ['.', 'e', 'E']

theorem ends_cons {c : Char} {rest : List Char} (noDigit : c.isDigit = false)
    (noMark : c ∉ ['.', 'e', 'E']) : Ends (c :: rest) := by
  rintro _ ⟨⟩
  exact ⟨noDigit, noMark⟩

/-- Digits are read up to the first character that is none. -/
theorem Digits.someDigits_append {digits rest : List Char} (all : Digits digits)
    (noDigit : ∀ c, rest.head? = some c → c.isDigit = false) :
    Number.someDigits (digits ++ rest) = .ok (digits, rest) := by
  obtain ⟨some, each⟩ := all
  have stop : rest.takeWhile Char.isDigit = [] ∧ rest.dropWhile Char.isDigit = rest := by
    cases rest with
    | nil => exact ⟨rfl, rfl⟩
    | cons c rest => simp [noDigit c rfl]
  have taken : (digits ++ rest).takeWhile Char.isDigit = digits := by
    rw [List.takeWhile_append_of_pos each, stop.1, List.append_nil]
  have dropped : (digits ++ rest).dropWhile Char.isDigit = rest := by
    rw [List.dropWhile_append_of_pos each, stop.2]
  unfold Number.someDigits
  rw [taken, dropped]
  split
  · contradiction
  · rfl

theorem FractionText.scanFraction_append {text digits rest : List Char}
    (written : FractionText text digits)
    (stop : ∀ c, rest.head? = some c → c.isDigit = false ∧ c ≠ '.') :
    Number.scanFraction (text ++ rest) = .ok (digits, rest) := by
  cases written with
  | absent =>
    rw [List.nil_append]
    unfold Number.scanFraction
    split
    · exact absurd rfl (stop '.' rfl).2
    · rfl
  | present behindPoint =>
    exact behindPoint.someDigits_append fun c first => (stop c first).1

theorem scanSign_append {sign digits : List Char} (signed : sign ∈ [[], ['+'], ['-']])
    (all : Digits digits) (rest : List Char) :
    Number.scanSign (sign ++ (digits ++ rest)) = (decide (sign = ['-']), digits ++ rest) := by
  obtain ⟨some, each⟩ := all
  obtain ⟨first, more, rfl⟩ := List.exists_cons_of_ne_nil some
  have digit := each first List.mem_cons_self
  simp only [List.mem_cons, List.not_mem_nil, or_false] at signed
  obtain rfl | rfl | rfl := signed
  · unfold Number.scanSign
    split
    · next minus => simp_all
    · next plus => simp_all
    · rfl
  · rfl
  · rfl

theorem ExponentText.scanExponent_append {text rest : List Char}
    {power : Option (Bool × List Char)} (written : ExponentText text power) (ends : Ends rest) :
    Number.scanExponent (text ++ rest) = .ok (power, rest) := by
  cases written with
  | absent =>
    cases rest with
    | nil => rfl
    | cons c rest =>
      have other := (ends c rfl).2
      rw [List.nil_append, Number.scanExponent, if_neg (by simp_all)]
  | @present mark sign digits letter signed behindSign =>
    have marked : (mark = 'e' || mark = 'E') = true := by simpa using letter
    rw [List.cons_append, List.append_assoc, Number.scanExponent, if_pos marked,
      scanSign_append signed behindSign,
      behindSign.someDigits_append fun c first => (ends c first).1]

/-- A number is read up to the first character that it does not go on with. -/
theorem scan_append {whole fraction exponent digits rest : List Char}
    {power : Option (Bool × List Char)} (front : WholeText whole)
    (middle : FractionText fraction digits) (back : ExponentText exponent power)
    (ends : Ends rest) (negative : Bool) :
    Number.scan negative (whole ++ (fraction ++ (exponent ++ rest))) =
      .ok (⟨negative, whole, digits, power⟩, rest) := by
  obtain ⟨all, noZero⟩ := front
  have behindFraction : ∀ c, (exponent ++ rest).head? = some c → c.isDigit = false ∧ c ≠ '.' := by
    intro c first
    cases back with
    | absent =>
      have other := ends c first
      exact ⟨other.1, by rintro rfl; simp at other⟩
    | present letter signed behindSign =>
      cases first
      simp only [List.mem_cons, List.not_mem_nil, or_false] at letter
      rcases letter with rfl | rfl <;> decide
  have behindWhole : ∀ c, (fraction ++ (exponent ++ rest)).head? = some c → c.isDigit = false := by
    intro c first
    cases middle with
    | absent => exact (behindFraction c first).1
    | present behindPoint =>
      cases first
      decide
  have plain : ¬(whole.head? = some '0' && 1 < whole.length) = true := by
    simp only [Bool.and_eq_true, decide_eq_true_eq, not_and]
    intro zero
    simp [noZero zero]
  unfold Number.scan
  rw [all.someDigits_append behindWhole]
  simp only [if_neg plain, middle.scanFraction_append behindFraction,
    back.scanExponent_append ends]

/-! ### Reading items -/

theorem items_blanks {text : List Char} (blank : Blanks text) (rest : List Char) :
    items (text ++ rest) = items rest := by
  induction text with
  | nil => rfl
  | cons c text ih =>
    have first := blank c List.mem_cons_self
    have isBlank : isBlank c = true := by simpa [Json.isBlank, or_assoc] using first
    rw [List.cons_append, items, if_pos isBlank]
    exact ih fun d behind => blank d (List.mem_cons_of_mem c behind)

theorem items_mark {c : Char} {item : Item} (marks : mark? c = some item) (rest : List Char) :
    items (c :: rest) = item :: items rest := by
  have visible : isBlank c = false := by
    unfold mark? at marks
    split at marks <;> first | rfl | cases marks
  rw [items, visible]
  simp [scanItem, marks]

theorem items_string {text : List Char} {pieces : List Piece} (spelled : Spelled text pieces)
    (rest : List Char) : items (quoted text ++ rest) = .string pieces none :: items rest := by
  have closed := spelled.scanString_append rest
  rw [quoted, List.cons_append, List.append_assoc, items]
  simp [isBlank, scanItem, mark?, letters?, closed]

/-- A digit begins a number, and nothing else. -/
private theorem items_digit {c : Char} (digit : c.isDigit = true) (rest : List Char) :
    items (c :: rest) =
      (scanNumber false (c :: rest)).1 :: items (scanNumber false (c :: rest)).2 := by
  have other : ∀ d : Char, d.isDigit = false → c ≠ d := by
    rintro d noDigit rfl
    rw [digit] at noDigit
    cases noDigit
  have noBlank : isBlank c = false := by
    simp [isBlank, other ' ' rfl, other '\t' rfl, other '\n' rfl, other '\r' rfl]
  have noMark : mark? c = none := by
    unfold mark?
    split <;> first | rfl | cases digit
  have noLetter : letters? c = none := by
    unfold letters?
    split <;> first | rfl | cases digit
  rw [items, noBlank]
  simp [scanItem, noMark, noLetter, other '"' rfl, other '-' rfl, digit]

theorem items_number {text : List Char} {number : Number} (written : NumberText text number)
    {rest : List Char} (ends : Ends rest) :
    items (text ++ rest) = .number number :: items rest := by
  obtain @⟨sign, whole, fraction, exponent, digits, power, signed, front, middle, back⟩ := written
  have read := scan_append front middle back ends
  simp only [List.append_assoc]
  simp only [List.mem_cons, List.not_mem_nil, or_false] at signed
  obtain rfl | rfl := signed
  · obtain ⟨first, more, rfl⟩ := List.exists_cons_of_ne_nil front.1.1
    have digit := front.1.2 first List.mem_cons_self
    rw [List.nil_append, List.cons_append, items_digit digit, ← List.cons_append,
      scanNumber, read]
    rfl
  · rw [List.singleton_append, items]
    simp [isBlank, scanItem, mark?, letters?, scanNumber, read]

theorem items_word {text : List Char}
    (listed : text ∈ [['n', 'u', 'l', 'l'], ['t', 'r', 'u', 'e'], ['f', 'a', 'l', 's', 'e']])
    (rest : List Char) : items (text ++ rest) = .word :: items rest := by
  simp only [List.mem_cons, List.not_mem_nil, or_false] at listed
  obtain rfl | rfl | rfl := listed <;>
  · rw [List.cons_append, items]
    simp [isBlank, scanItem, mark?, letters?, scanWord]

/-! ### Reading texts of the grammar -/

theorem ends_blanks {text rest : List Char} (blank : Blanks text) (ends : Ends rest) :
    Ends (text ++ rest) := by
  cases text with
  | nil => exact ends
  | cons c text =>
    have first := blank c List.mem_cons_self
    simp only [List.mem_cons, List.not_mem_nil, or_false] at first
    rcases first with rfl | rfl | rfl | rfl <;> exact ends_cons (by decide) (by decide)

/-- Blanks around a text do not count. -/
theorem Padded.items_append {core text : List Char} (padded : Padded core text) {its : List Item}
    (read : ∀ rest, Ends rest → items (core ++ rest) = its ++ items rest) :
    ∀ rest, Ends rest → items (text ++ rest) = its ++ items rest := by
  obtain ⟨before, behind, front, back, rfl⟩ := padded
  intro rest ends
  rw [List.append_assoc, List.append_assoc, items_blanks front, read _ (ends_blanks back ends),
    items_blanks back]

/-- **A text of the grammar is read as its items**, whatever ends it. -/
theorem Spells.items_append {part : Part} {text : List Char} {its : List Item}
    (spells : Spells part text its) :
    ∀ rest, Ends rest → items (text ++ rest) = its ++ items rest := by
  induction spells with
  | word listed => exact fun rest _ => items_word listed rest
  | number written => exact fun rest ends => items_number written ends
  | string inside => exact fun rest _ => items_string inside rest
  | emptyArray blank =>
    intro rest _
    rw [List.cons_append, items_mark rfl, List.append_assoc, items_blanks blank,
      List.singleton_append, items_mark rfl]
    rfl
  | array inside ih =>
    intro rest _
    rw [List.cons_append, items_mark rfl, List.append_assoc, List.singleton_append,
      ih _ (ends_cons (by decide) (by decide)), items_mark rfl]
    simp
  | emptyObject blank =>
    intro rest _
    rw [List.cons_append, items_mark rfl, List.append_assoc, items_blanks blank,
      List.singleton_append, items_mark rfl]
    rfl
  | object inside ih =>
    intro rest _
    rw [List.cons_append, items_mark rfl, List.append_assoc, List.singleton_append,
      ih _ (ends_cons (by decide) (by decide)), items_mark rfl]
    simp
  | item inside padded ih => exact padded.items_append ih
  | lastItem last ih => exact ih
  | nextItem first rest ihFirst ihRest =>
    intro rest ends
    rw [List.append_assoc, List.cons_append, ihFirst _ (ends_cons (by decide) (by decide)),
      items_mark rfl, ihRest _ ends, List.append_assoc, List.cons_append]
  | @member inside name text pieces its spelled padded value ih =>
    intro rest ends
    have named : ∀ rest, Ends rest → items (name ++ rest) = [.string pieces none] ++ items rest :=
      padded.items_append fun rest _ => items_string spelled rest
    rw [List.append_assoc, List.cons_append, named _ (ends_cons (by decide) (by decide)),
      items_mark rfl, ih _ ends]
    rfl
  | lastMember last ih => exact ih
  | nextMember first rest ihFirst ihRest =>
    intro rest ends
    rw [List.append_assoc, List.cons_append, ihFirst _ (ends_cons (by decide) (by decide)),
      items_mark rfl, ihRest _ ends, List.append_assoc, List.cons_append]

/-- A whole text of the grammar is read as its items. -/
theorem Spells.items_eq {part : Part} {text : List Char} {its : List Item}
    (spells : Spells part text its) : items text = its := by
  have read := spells.items_append [] (by rintro c ⟨⟩)
  rwa [List.append_nil, items, List.append_nil] at read

/-- A part begins with an item that closes nothing. -/
theorem Spells.exists_first {part : Part} {text : List Char} {its : List Item}
    (spells : Spells part text its) :
    ∃ first more, its = first :: more ∧ first ≠ .closeArray ∧ first ≠ .closeObject := by
  induction spells with
  | item inside padded ih => exact ih
  | lastItem last ih => exact ih
  | lastMember last ih => exact ih
  | nextItem front rest ih _ =>
    obtain ⟨first, more, rfl, opens⟩ := ih
    exact ⟨first, _, rfl, opens⟩
  | nextMember front rest ih _ =>
    obtain ⟨first, more, rfl, opens⟩ := ih
    exact ⟨first, _, rfl, opens⟩
  | word | number | string | emptyArray | array | emptyObject | object | member =>
    exact ⟨_, _, rfl, Item.noConfusion, Item.noConfusion⟩

end BlockLanguage.Json
