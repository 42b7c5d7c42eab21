/-
**JSON values without spaces are read back from both of their forms.**

* `Textual` — the values that consist of arrays, objects, and strings without spaces.
* `ofText?` — reads such a value item by item, with what is not in place yet on a stack.
* **`Textual.ofText?_text`**, **`Textual.ofText?_pretty`** — both forms give the value back.
* **`Textual.bare_pretty`** — without its spaces and line feeds the pretty form is the compact one.
-/

import BlockLanguage.Proofs.JsonForms

namespace BlockLanguage.Json

/-- A value of arrays, objects, and strings without spaces. -/
inductive Textual : Json → Prop
  | str {text : String} (solid : ' ' ∉ text.toList) : Textual (.str text)
  | arr {values : List Json} (each : ∀ value ∈ values, Textual value) : Textual (.arr values)
  | obj {members : List (String × Json)} (solid : ∀ member ∈ members, ' ' ∉ member.1.toList)
      (each : ∀ member ∈ members, Textual member.2) : Textual (.obj members)

/-! ### Reading -/

/-- The members that names and values in turn make. -/
def pairs? : List Json → Option (List (String × Json))
  | [] => some []
  | .str key :: value :: more => (pairs? more).map ((key, value) :: ·)
  | _ => none

/-- Places an item: behind the values read so far inside the innermost open bracket, which are the
first ones of the stack. Commas and colons only separate what is read. -/
def place : List (List Json) → Item → Option (List (List Json))
  | values :: outer, .string pieces flaw =>
    match decode flaw pieces with
    | .ok text => some ((values ++ [.str (String.ofList text)]) :: outer)
    | .error _ => none
  | stack, .openArray | stack, .openObject => some ([] :: stack)
  | inner :: values :: outer, .closeArray => some ((values ++ [.arr inner]) :: outer)
  | inner :: values :: outer, .closeObject =>
    (pairs? inner).map fun members => (values ++ [.obj members]) :: outer
  | stack, .comma | stack, .colon => some stack
  | _, _ => none

/-- The value that a text is the written form of, if it is a textual one. -/
def ofText? (text : String) : Option Json :=
  match (items text.toList).foldlM place [[]] with
  | some [[value]] => some value
  | _ => none

theorem pairs?_flatMap (members : List (String × Json)) :
    pairs? (members.flatMap fun member => [.str member.1, member.2]) = some members := by
  induction members with
  | nil => rfl
  | cons member more ih =>
    rw [List.flatMap_cons]
    simp [pairs?, ih]

/-- Parts with commas between them are placed one behind another. -/
theorem foldlM_place_intercalate {α : Type} {its : α → List Item} {made : α → List Json}
    {outer : List (List Json)} {parts : List α}
    (each : ∀ part ∈ parts, ∀ values,
      (its part).foldlM place (values :: outer) = some ((values ++ made part) :: outer))
    (values : List Json) :
    ([Item.comma].intercalate (parts.map its)).foldlM place (values :: outer) =
      some ((values ++ parts.flatMap made) :: outer) := by
  induction parts generalizing values with
  | nil => simp
  | cons part more ih =>
    have here := each part List.mem_cons_self
    have rest := ih fun other member => each other (List.mem_cons_of_mem _ member)
    cases more with
    | nil => simp [here]
    | cons second others =>
      have between : [Item.comma].foldlM place ((values ++ made part) :: outer) =
          some ((values ++ made part) :: outer) := rfl
      rw [List.map_cons, List.map_cons, List.intercalate_cons_cons, ← List.map_cons,
        List.foldlM_append, List.foldlM_append, here, Option.bind_eq_bind, Option.bind_some,
        between, Option.bind_some, rest]
      simp

/-- **A value is placed as a whole** behind the values that are there. -/
theorem Textual.foldlM_place {value : Json} (textual : Textual value) :
    ∀ (values : List Json) (outer : List (List Json)),
      value.asItems.foldlM place (values :: outer) = some ((values ++ [value]) :: outer) := by
  induction textual with
  | @str text solid =>
    intro values outer
    have decoded := (denotes_map text.toList).decode_eq
    simp [asItems, place, decoded]
  | @arr values each ih =>
    intro front outer
    have inside := foldlM_place_intercalate
      (fun value member inner => ih value member inner (front :: outer)) []
    rw [asItems, arrayItems_eq_map]
    simp [place, inside, List.flatMap_singleton']
  | @obj members solid each ih =>
    intro front outer
    have member : ∀ member ∈ members, ∀ values,
        (memberItems member).foldlM place (values :: front :: outer) =
          some ((values ++ [.str member.1, member.2]) :: front :: outer) := by
      intro member listed values
      have decoded := (denotes_map member.1.toList).decode_eq
      simp [memberItems, place, decoded, ih member listed]
    have inside := foldlM_place_intercalate member []
    rw [asItems, objectItems_eq_map]
    simp [place, inside, pairs?_flatMap]

theorem Textual.place_asItems {value : Json} (textual : Textual value) :
    value.asItems.foldlM place [[]] = some [[value]] :=
  textual.foldlM_place [] []

/-- A textual value is read from its compact form. -/
theorem Textual.ofText?_text {value : Json} (textual : Textual value) :
    ofText? value.text = some value := by
  rw [ofText?, items_text, textual.place_asItems]

/-- A textual value is read from its pretty form. -/
theorem Textual.ofText?_pretty {value : Json} (textual : Textual value) :
    ofText? value.pretty = some value := by
  rw [ofText?, items_pretty, textual.place_asItems]

/-! ### Without spaces and line feeds -/

/-- A text without its spaces and line feeds. -/
def bare (text : List Char) : List Char := text.filter fun c => c ≠ ' ' && c ≠ '\n'

theorem bare_append (front back : List Char) :
    bare (front ++ back) = bare front ++ bare back := by
  rw [bare, List.filter_append, bare, bare]

theorem bare_lineStart (depth : Nat) : bare (lineStart depth).toList = [] := by
  rw [toList_lineStart]
  simp [bare]

/-- Nothing is deleted from a text without spaces and line feeds. -/
theorem bare_eq_self {text : List Char} (solid : ∀ c ∈ text, c ≠ ' ' ∧ c ≠ '\n') :
    bare text = text :=
  List.filter_eq_self.mpr fun c member => by simpa using solid c member

/-- No character is written with a line feed, and only a space is written with one. -/
theorem solid_escape {c : Char} (solid : c ≠ ' ') : ∀ d ∈ escape c, d ≠ ' ' ∧ d ≠ '\n' := by
  unfold escape
  iterate 7
    split
    · simp
  split
  · next control =>
    have digits : ∀ n < 16, n.digitChar ≠ ' ' ∧ n.digitChar ≠ '\n' := by decide
    have high := digits (c.toNat / 16) (by omega)
    have low := digits (c.toNat % 16) (by omega)
    simp [high, low]
  · next noLineFeed _ _ _ => simp [solid, noLineFeed]

/-- Nothing is deleted from a string without spaces. -/
theorem bare_quote {text : String} (solid : ' ' ∉ text.toList) :
    bare (quote text).toList = (quote text).toList := by
  rw [toList_quote]
  refine bare_eq_self fun c member => ?_
  simp only [quoted, List.mem_cons, List.mem_append, List.mem_flatMap, List.not_mem_nil,
    or_false] at member
  rcases member with rfl | ⟨d, inside, written⟩ | rfl
  · decide
  · exact solid_escape (fun space => solid (space ▸ inside)) c written
  · decide

theorem bare_cons {c : Char} (solid : c ≠ ' ' ∧ c ≠ '\n') (text : List Char) :
    bare (c :: text) = c :: bare text :=
  List.filter_cons_of_pos (by simpa using solid)

/-- Blanks between brackets are deleted around the parts, and in each of them. -/
theorem bare_enclosed {opening closing : Char} {before behind : List Char}
    (first : opening ≠ ' ' ∧ opening ≠ '\n') (last : closing ≠ ' ' ∧ closing ≠ '\n')
    (front : bare before = []) (back : bare behind = []) (parts : List (List Char)) :
    bare (enclosed opening closing before behind parts) =
      enclosed opening closing [] [] (parts.map bare) := by
  have between := map_intercalate_of_append bare rfl bare_append (',' :: before) parts
  rw [bare_cons (by decide), front] at between
  rw [enclosed, bare_cons first, bare_append, bare_append, bare_append, between, front, back,
    bare_cons last]
  rfl

/-- **Without its spaces and line feeds the pretty form is the compact one.** -/
theorem Textual.bare_prettyChars {value : Json} (textual : Textual value) :
    ∀ depth, bare (value.prettyChars depth) = value.text.toList := by
  induction textual with
  | @str text solid =>
    intro depth
    have chars : (Json.str text).prettyChars depth = (quote text).toList :=
      List.flatMap_singleton _ _
    rw [chars, bare_quote solid, Json.text]
  | @arr values each ih =>
    intro depth
    by_cases nonempty : values = []
    · subst nonempty
      rfl
    rw [prettyChars_arr depth nonempty, toList_text_arr, bare_enclosed (by decide)
      (by decide) (bare_lineStart _) (bare_lineStart _), List.map_map]
    have parts : values.map (bare ∘ prettyChars (depth + 1)) =
        values.map fun value => value.text.toList :=
      List.map_congr_left fun value member => ih value member (depth + 1)
    rw [parts]
  | @obj members solid each ih =>
    intro depth
    by_cases nonempty : members = []
    · subst nonempty
      rfl
    rw [prettyChars_obj depth nonempty, toList_text_obj, bare_enclosed (by decide)
      (by decide) (bare_lineStart _) (bare_lineStart _), List.map_map]
    have parts : members.map (bare ∘ fun member =>
          memberChars [' '] member.1 (member.2.prettyChars (depth + 1))) =
        members.map fun member => memberChars [] member.1 member.2.text.toList := by
      refine List.map_congr_left fun member listed => ?_
      have name := bare_quote (solid member listed)
      have value := ih member listed (depth + 1)
      rw [Function.comp_apply, memberChars, memberChars, bare_append, name,
        bare_cons (by decide), bare_append, value]
      rfl
    rw [parts]

theorem Textual.bare_pretty {value : Json} (textual : Textual value) :
    String.ofList (bare value.pretty.toList) = value.text := by
  rw [toList_pretty, textual.bare_prettyChars, String.ofList_toList]

end BlockLanguage.Json
