/-
**Both written forms of a JSON value are read as the same items.**

* `piece` — a character is written as itself, behind a backslash, or as a unit of UTF-16.
* `Number.ofInt` — an integer is written in decimal digits, and without a zero in front.
* `asItems` — the items that a value is written with.
* **`spelt`** — the compact and the pretty form of a value are texts of the grammar, and consist of
  these items; so both are read as them (`items_text`, `items_pretty`).
-/

import BlockLanguage.Json
import BlockLanguage.Proofs.JsonGrammar

namespace BlockLanguage.Json

/-! ### Strings -/

/-- The piece that a character is written as: most characters below U+0020 are written as units. -/
def piece (c : Char) : Piece :=
  if c.toNat < 0x20 ∧ c.toNat ∉ [0x08, 0x09, 0x0A, 0x0C, 0x0D] then .unit c.toNat else .char c

/-- A character is written as its piece. -/
theorem spelled_escape (c : Char) {text : List Char} {pieces : List Piece}
    (more : Spelled text pieces) : Spelled (escape c ++ text) (piece c :: pieces) := by
  have named : ∀ n, c.toNat = n → c = Char.ofNat n := fun n same => by
    rw [← same, Char.ofNat_toNat]
  unfold escape
  split
  · next quote => subst quote; exact .escaped (by decide) more
  split
  · next backslash => subst backslash; exact .escaped (by decide) more
  split
  · next backspace => rw [named _ backspace]; exact .escaped (by decide) more
  split
  · next tab => subst tab; exact .escaped (by decide) more
  split
  · next lineFeed => subst lineFeed; exact .escaped (by decide) more
  split
  · next formFeed => rw [named _ formFeed]; exact .escaped (by decide) more
  split
  · next carriageReturn => subst carriageReturn; exact .escaped (by decide) more
  rename_i noQuote noBackslash noBackspace noTab noLineFeed noFormFeed noCarriageReturn
  split
  · next control =>
    have long : c.toNat ∉ [0x08, 0x09, 0x0A, 0x0C, 0x0D] := by
      simp only [List.mem_cons, List.not_mem_nil, or_false, not_or]
      exact ⟨noBackspace, fun same => noTab (named _ same), fun same => noLineFeed (named _ same),
        noFormFeed, fun same => noCarriageReturn (named _ same)⟩
    have zero : IsHexDigit '0' 0 := ⟨by decide, .inl rfl⟩
    have high : IsHexDigit (c.toNat / 16).digitChar (c.toNat / 16) := ⟨by omega, .inl rfl⟩
    have low : IsHexDigit (c.toNat % 16).digitChar (c.toNat % 16) := ⟨by omega, .inl rfl⟩
    have unit := Spelled.unit (.digits zero zero high low) more
    rw [show 16 * (16 * (16 * 0 + 0) + c.toNat / 16) + c.toNat % 16 = c.toNat by omega] at unit
    rw [piece, if_pos ⟨control, long⟩]
    exact unit
  · next visible =>
    rw [piece, if_neg fun control => visible control.1]
    exact .plain ⟨Nat.not_lt.mp visible, noQuote, noBackslash⟩ more

theorem spelled_flatMap (text : List Char) : Spelled (text.flatMap escape) (text.map piece) := by
  induction text with
  | nil => exact .nil
  | cons c text ih =>
    rw [List.flatMap_cons, List.map_cons]
    exact spelled_escape c ih

/-- The pieces that a text is written as denote it. -/
theorem denotes_map (text : List Char) : Denotes (text.map piece) text := by
  induction text with
  | nil => exact .nil
  | cons c text ih =>
    rw [List.map_cons, piece]
    split
    · next control => exact .unit (by omega) ih
    · exact .char c ih

theorem toList_quote (text : String) :
    (quote text).toList = quoted (text.toList.flatMap escape) := by
  simp [quote, quoted]

/-! ### Numbers -/

/-- The decimal literal of a number. -/
def decimal (n : Nat) : List Char := (toString n).toList

theorem decimal_eq (n : Nat) : decimal n = Nat.toDigits 10 n := by
  rw [decimal, Nat.toString_eq_ofList_toDigits, String.toList_ofList]

/-- Only zero is written with a zero in front. -/
theorem eq_zero_of_head? {n : Nat} (zero : (Nat.toDigits 10 n).head? = some '0') : n = 0 := by
  induction n using Nat.strongRecOn with
  | ind n ih =>
    by_cases small : n < 10
    · rw [Nat.toDigits_of_lt_base small] at zero
      simpa using zero
    · have great : 10 ≤ n := Nat.not_lt.mp small
      obtain ⟨first, more, split⟩ := List.exists_cons_of_ne_nil (@Nat.toDigits_ne_nil (n / 10) 10)
      rw [Nat.toDigits_of_base_le (by decide) great, split] at zero
      have front := ih (n / 10) (by omega) (by rw [split]; exact zero)
      omega

theorem wholeText_decimal (n : Nat) : WholeText (decimal n) := by
  have digits : Digits (decimal n) := by
    rw [decimal_eq]
    exact ⟨Nat.toDigits_ne_nil,
      fun c member => Nat.isDigit_of_mem_toDigits (by decide) (by decide) member⟩
  refine ⟨digits, fun zero => ?_⟩
  rw [decimal_eq] at zero ⊢
  rw [eq_zero_of_head? zero, Nat.toDigits_zero]

/-- A decimal literal is a number without a sign, a fraction and an exponent. -/
theorem numberText_decimal (n : Nat) : NumberText (decimal n) ⟨false, decimal n, [], none⟩ := by
  have parts := @NumberText.parts [] (decimal n) [] [] [] none (by decide) (wholeText_decimal n)
    .absent .absent
  simpa using parts

/-- The number that an integer is written as. -/
def Number.ofInt (value : Int) : Number := ⟨value < 0, decimal value.natAbs, [], none⟩

theorem numberText_toString (value : Int) :
    NumberText (toString value).toList (Number.ofInt value) := by
  have text : value.natAbs.repr.toList = decimal value.natAbs := by
    rw [decimal, Nat.toString_eq_repr]
  rw [Int.toString_eq_repr, Int.repr_eq_if]
  split
  · next positive =>
    have same : value.toNat = value.natAbs := by omega
    have sign : ¬value < 0 := Int.not_lt.mpr positive
    simpa [Number.ofInt, same, sign, text] using numberText_decimal value.natAbs
  · next negative =>
    have same : (-value).toNat = value.natAbs := by omega
    have sign : value < 0 := Int.not_le.mp negative
    have parts := @NumberText.parts ['-'] (decimal value.natAbs) [] [] [] none (by decide)
      (wholeText_decimal _) .absent .absent
    simpa [Number.ofInt, same, sign, text] using parts

/-! ### Values -/

mutual

/-- The items that a value is written with. -/
def asItems : Json → List Item
  | null | bool _ => [.word]
  | num value => [.number (Number.ofInt value)]
  | str text => [.string (text.toList.map piece) none]
  | arr values => .openArray :: ([Item.comma].intercalate (arrayItems values) ++ [.closeArray])
  | obj members =>
    .openObject :: ([Item.comma].intercalate (objectItems members) ++ [.closeObject])

/-- The items of each value of an array. -/
def arrayItems : List Json → List (List Item)
  | [] => []
  | value :: more => value.asItems :: arrayItems more

/-- The items of each member of an object. -/
def objectItems : List (String × Json) → List (List Item)
  | [] => []
  | (key, value) :: more =>
    (.string (key.toList.map piece) none :: .colon :: value.asItems) :: objectItems more

end

/-- The items of a member. -/
def memberItems (member : String × Json) : List Item :=
  .string (member.1.toList.map piece) none :: .colon :: member.2.asItems

theorem arrayItems_eq_map (values : List Json) : arrayItems values = values.map asItems := by
  induction values with
  | nil => rw [arrayItems, List.map_nil]
  | cons value more ih => rw [arrayItems, ih, List.map_cons]

theorem objectItems_eq_map (members : List (String × Json)) :
    objectItems members = members.map memberItems := by
  induction members with
  | nil => rw [objectItems, List.map_nil]
  | cons member more ih => rw [objectItems, ih, List.map_cons, memberItems]

/-! ### The two forms as characters -/

/-- Parts between brackets, with commas between them and with blanks in front of each and behind the
last one. -/
def enclosed (opening closing : Char) (before behind : List Char) (parts : List (List Char)) :
    List Char :=
  opening :: (before ++ ((',' :: before).intercalate parts ++ behind) ++ [closing])

/-- A name between quotes, a colon, a gap, and the text of a value. -/
def memberChars (gap : List Char) (name : String) (core : List Char) : List Char :=
  (quote name).toList ++ ':' :: (gap ++ core)

/-- The characters of the pretty form of a value whose first line begins at a depth. -/
def prettyChars (depth : Nat) (value : Json) : List Char :=
  (value.prettyAt depth).flatMap String.toList

theorem toList_pretty (value : Json) : value.pretty.toList = value.prettyChars 0 := by
  rw [pretty, String.toList_join, prettyChars]

theorem toList_lineStart (depth : Nat) :
    (lineStart depth).toList = '\n' :: List.replicate (2 * depth) ' ' := by
  simp [lineStart]

theorem toList_text_arr (values : List Json) :
    (arr values).text.toList =
      enclosed '[' ']' [] [] (values.map fun value => value.text.toList) := by
  rw [text, itemTexts_eq_map]
  simp [enclosed, Function.comp_def]

theorem toList_text_obj (members : List (String × Json)) :
    (obj members).text.toList = enclosed '\x7b' '\x7d' [] []
      (members.map fun member => memberChars [] member.1 member.2.text.toList) := by
  rw [text, memberTexts_eq_map]
  simp [enclosed, memberChars, Function.comp_def]

/-- What respects appending respects lists with a separator between them. -/
theorem map_intercalate_of_append {α β : Type} (image : List α → List β) (nil : image [] = [])
    (append : ∀ front back, image (front ++ back) = image front ++ image back)
    (separator : List α) (lists : List (List α)) :
    image (separator.intercalate lists) = (image separator).intercalate (lists.map image) := by
  induction lists with
  | nil => exact nil
  | cons list more ih =>
    cases more with
    | nil => simp
    | cons second others =>
      rw [List.map_cons, List.map_cons, List.intercalate_cons_cons, List.intercalate_cons_cons,
        append, append, ih, List.map_cons]

/-- What is spread over lines stands between the brackets, each part behind the start of a line. -/
theorem flatMap_spread {α : Type} (opening closing : Char) (depth : Nat) (write : α → List String)
    {parts : List α} (nonempty : parts ≠ []) :
    (spread (.singleton opening) (.singleton closing) depth (parts.map write)).flatMap
        String.toList =
      enclosed opening closing (lineStart (depth + 1)).toList (lineStart depth).toList
        (parts.map fun part => (write part).flatMap String.toList) := by
  have some : (parts.map write).isEmpty = false := by simpa using nonempty
  have between := map_intercalate_of_append (fun pieces => pieces.flatMap String.toList) rfl
    (fun _ _ => List.flatMap_append) [",", lineStart (depth + 1)] (parts.map write)
  rw [List.map_map] at between
  simp only [spread, some]
  simp [between, enclosed, Function.comp_def]

theorem prettyChars_arr (depth : Nat) {values : List Json} (nonempty : values ≠ []) :
    (arr values).prettyChars depth =
      enclosed '[' ']' (lineStart (depth + 1)).toList (lineStart depth).toList
        (values.map (prettyChars (depth + 1))) := by
  rw [prettyChars, prettyAt, prettyItems_eq_map]
  exact flatMap_spread '[' ']' depth _ nonempty

theorem prettyChars_obj (depth : Nat) {members : List (String × Json)} (nonempty : members ≠ []) :
    (obj members).prettyChars depth =
      enclosed '\x7b' '\x7d' (lineStart (depth + 1)).toList (lineStart depth).toList
        (members.map fun member =>
          memberChars [' '] member.1 (member.2.prettyChars (depth + 1))) := by
  rw [prettyChars, prettyAt, prettyMembers_eq_map]
  refine (flatMap_spread '\x7b' '\x7d' depth _ nonempty).trans ?_
  simp [prettyChars, memberChars]

/-! ### Both forms are texts of the grammar -/

theorem blanks_lineStart (depth : Nat) : Blanks (lineStart depth).toList := by
  rw [toList_lineStart]
  intro c member
  rcases List.mem_cons.mp member with rfl | space
  · decide
  · rw [List.eq_of_mem_replicate space]
    decide

/-- Parts with commas between them are the text of a list of them, whatever blanks stand in front of
each part and behind the last one. -/
theorem spells_intercalate {α : Type} {one many : Part}
    (last : ∀ {text its}, Spells one text its → Spells many text its)
    (next : ∀ {text its more others}, Spells one text its → Spells many more others →
      Spells many (text ++ ',' :: more) (its ++ .comma :: others))
    {write : α → List Char} {its : α → List Item} {before behind : List Char}
    (blank : Blanks behind) {parts : List α} (nonempty : parts ≠ [])
    (each : ∀ part ∈ parts, ∀ after, Blanks after →
      Spells one (before ++ (write part ++ after)) (its part)) :
    Spells many (before ++ ((',' :: before).intercalate (parts.map write) ++ behind))
      ([Item.comma].intercalate (parts.map its)) := by
  induction parts with
  | nil => contradiction
  | cons part more ih =>
    have here := each part List.mem_cons_self
    cases more with
    | nil =>
      rw [List.map_singleton, List.map_singleton, List.intercalate_singleton,
        List.intercalate_singleton]
      exact last (here behind blank)
    | cons second others =>
      have rest := ih (List.cons_ne_nil _ _) fun other member =>
        each other (List.mem_cons_of_mem _ member)
      rw [List.map_cons, List.map_cons, List.map_cons, List.map_cons, List.intercalate_cons_cons,
        List.intercalate_cons_cons, ← List.map_cons, ← List.map_cons]
      have first := here [] blanks_nil
      have whole := next first rest
      simpa using whole

/-- A member may have blanks in front of it, behind its colon, and behind it. -/
theorem spells_member {member : String × Json} {before gap core after : List Char}
    (front : Blanks before) (middle : Blanks gap) (back : Blanks after)
    (value : Spells .value core member.2.asItems) :
    Spells .member (before ++ (memberChars gap member.1 core ++ after)) (memberItems member) := by
  have name : Padded (quoted (member.1.toList.flatMap escape))
      (before ++ (quote member.1).toList) :=
    ⟨before, [], front, blanks_nil, by rw [toList_quote, List.append_nil]⟩
  have written := Spells.member (spelled_flatMap member.1.toList) name
    (.item value ⟨gap, after, middle, back, rfl⟩)
  simpa [memberItems, memberChars] using written

/-- A value whose two forms both are texts of its items, wherever the pretty one begins. -/
def Spelt (value : Json) : Prop :=
  Spells .value value.text.toList value.asItems ∧
    ∀ depth, Spells .value (value.prettyChars depth) value.asItems

theorem spelt_leaf {value : Json} (written : Spells .value value.text.toList value.asItems)
    (leaf : ∀ depth, value.prettyAt depth = [value.text]) : value.Spelt := by
  refine ⟨written, fun depth => ?_⟩
  rw [prettyChars, leaf]
  simpa using written

theorem spelt_arr {values : List Json} (each : ∀ value ∈ values, value.Spelt) :
    (arr values).Spelt := by
  by_cases nonempty : values = []
  · subst nonempty
    exact ⟨.emptyArray blanks_nil, fun _ => .emptyArray blanks_nil⟩
  rw [Spelt, toList_text_arr, asItems, arrayItems_eq_map]
  constructor
  · refine .array (spells_intercalate .lastItem .nextItem blanks_nil nonempty ?_)
    intro value member after blank
    exact .item (each value member).1 ⟨[], after, blanks_nil, blank, rfl⟩
  · intro depth
    rw [prettyChars_arr depth nonempty]
    refine .array (spells_intercalate .lastItem .nextItem (blanks_lineStart depth) nonempty ?_)
    intro value member after blank
    exact .item ((each value member).2 _) ⟨_, after, blanks_lineStart (depth + 1), blank, rfl⟩

theorem spelt_obj {members : List (String × Json)} (each : ∀ member ∈ members, member.2.Spelt) :
    (obj members).Spelt := by
  by_cases nonempty : members = []
  · subst nonempty
    exact ⟨.emptyObject blanks_nil, fun _ => .emptyObject blanks_nil⟩
  rw [Spelt, toList_text_obj, asItems, objectItems_eq_map]
  constructor
  · refine .object (spells_intercalate .lastMember .nextMember blanks_nil nonempty ?_)
    intro member listed after blank
    exact spells_member blanks_nil blanks_nil blank (each member listed).1
  · intro depth
    have space : Blanks [' '] := by simp [Blanks]
    rw [prettyChars_obj depth nonempty]
    refine .object (spells_intercalate .lastMember .nextMember (blanks_lineStart depth) nonempty ?_)
    intro member listed after blank
    exact spells_member (blanks_lineStart (depth + 1)) space blank ((each member listed).2 _)

mutual

/-- **Both forms of a value are texts of the grammar**, and consist of the same items. -/
theorem spelt : ∀ value : Json, value.Spelt
  | null => spelt_leaf (.word (by decide)) fun _ => rfl
  | bool true => spelt_leaf (.word (by decide)) fun _ => rfl
  | bool false => spelt_leaf (.word (by decide)) fun _ => rfl
  | num value => spelt_leaf (.number (numberText_toString value)) fun _ => rfl
  | str text => by
    refine spelt_leaf ?_ fun _ => rfl
    rw [Json.text, toList_quote]
    exact .string (spelled_flatMap text.toList)
  | arr values => spelt_arr (spelt_of_mem values)
  | obj members => spelt_obj (spelt_of_mem_members members)

theorem spelt_of_mem : ∀ values : List Json, ∀ value ∈ values, value.Spelt
  | [] => List.forall_mem_nil _
  | value :: more => List.forall_mem_cons.mpr ⟨spelt value, spelt_of_mem more⟩

theorem spelt_of_mem_members :
    ∀ members : List (String × Json), ∀ member ∈ members, member.2.Spelt
  | [] => List.forall_mem_nil _
  | (_, value) :: more => List.forall_mem_cons.mpr ⟨spelt value, spelt_of_mem_members more⟩

end

theorem items_text (value : Json) : items value.text.toList = value.asItems :=
  (spelt value).1.items_eq

theorem items_pretty (value : Json) : items value.pretty.toList = value.asItems := by
  rw [toList_pretty]
  exact ((spelt value).2 0).items_eq

end BlockLanguage.Json
