/-
**The instructions that a program defines.**

A context maps names to blocks. It is the list of its entries in strictly increasing order of their
names, and no entry has the name of an instruction that is built in; so a context is determined by
what it maps each name to.

* `find?_put`, `find?_remove`: what a name means afterwards, for every name.
* `ext_find?`: contexts that map every name alike are equal.
-/

import BlockLanguage.Statement

namespace BlockLanguage

namespace Context

/-- The entries of a context: names, each with the block that it stands for. -/
abbrev Entries := List (Identifier × Block)

/-- The names increase strictly, so that no name occurs twice. -/
def Sorted (entries : Entries) : Prop :=
  entries.Pairwise fun first second => first.1.text < second.1.text

/-- No entry has the name of an instruction that is built in. -/
def Definable (entries : Entries) : Prop :=
  ∀ entry ∈ entries, Word.isPrimitive entry.1.text = false

instance (entries : Entries) : Decidable (Sorted entries) :=
  inferInstanceAs (Decidable (entries.Pairwise fun first second => first.1.text < second.1.text))

/-- The block that a name stands for in a list of entries. -/
def lookup (name : String) : Entries → Option Block
  | [] => none
  | (key, body) :: more => if key.text = name then some body else lookup name more

/-- The entries with one more in its place, instead of one of the same name. -/
def place (name : Identifier) (body : Block) : Entries → Entries
  | [] => [(name, body)]
  | (key, old) :: more =>
    if name.text < key.text then (name, body) :: (key, old) :: more
    else if key = name then (name, body) :: more
    else (key, old) :: place name body more

/-- The entries without those of a name. -/
def drop (name : String) (entries : Entries) : Entries :=
  entries.filter fun entry => entry.1.text ≠ name

/-! ### The two edits keep the order -/

theorem mem_place {name : Identifier} {body : Block} {entries : Entries}
    {entry : Identifier × Block} (member : entry ∈ place name body entries) :
    entry = (name, body) ∨ entry ∈ entries := by
  induction entries with
  | nil => simpa [place] using member
  | cons head more ih =>
    obtain ⟨key, old⟩ := head
    rw [place] at member
    split at member
    · simpa using member
    · split at member
      · rcases List.mem_cons.mp member with same | tail
        · exact .inl same
        · exact .inr (List.mem_cons_of_mem _ tail)
      · rcases List.mem_cons.mp member with same | tail
        · exact .inr (by simp [same])
        · rcases ih tail with fresh | kept
          · exact .inl fresh
          · exact .inr (List.mem_cons_of_mem _ kept)

theorem sorted_place (name : Identifier) (body : Block) {entries : Entries}
    (sorted : Sorted entries) : Sorted (place name body entries) := by
  induction entries with
  | nil => simp [Sorted, place]
  | cons head more ih =>
    obtain ⟨key, old⟩ := head
    obtain ⟨above, tailSorted⟩ := List.pairwise_cons.mp sorted
    rw [place]
    split
    · next before =>
      refine List.pairwise_cons.mpr ⟨fun entry member => ?_, sorted⟩
      rcases List.mem_cons.mp member with rfl | tail
      · exact before
      · exact String.lt_trans before (above entry tail)
    · next notBefore =>
      split
      · next same =>
        subst same
        exact List.pairwise_cons.mpr ⟨above, tailSorted⟩
      · next different =>
        have behind : key.text < name.text := by
          refine Decidable.byContradiction fun notBehind => different (Identifier.ext ?_)
          exact String.le_antisymm (String.not_lt.mp notBefore) (String.not_lt.mp notBehind)
        refine List.pairwise_cons.mpr ⟨fun entry member => ?_, ih tailSorted⟩
        rcases mem_place member with rfl | kept
        · exact behind
        · exact above entry kept

theorem definable_place {name : Identifier} {body : Block} {entries : Entries}
    (free : Word.isPrimitive name.text = false) (definable : Definable entries) :
    Definable (place name body entries) := by
  intro entry member
  rcases mem_place member with rfl | kept
  · exact free
  · exact definable entry kept

theorem sorted_drop (name : String) {entries : Entries} (sorted : Sorted entries) :
    Sorted (drop name entries) :=
  List.Pairwise.filter _ sorted

theorem definable_drop (name : String) {entries : Entries} (definable : Definable entries) :
    Definable (drop name entries) :=
  fun entry member => definable entry (List.mem_filter.mp member).1

/-! ### What a name means after an edit -/

theorem lookup_place (name : Identifier) (body : Block) (asked : String) (entries : Entries) :
    lookup asked (place name body entries) =
      if name.text = asked then some body else lookup asked entries := by
  induction entries with
  | nil => rfl
  | cons head more ih =>
    obtain ⟨key, old⟩ := head
    rw [place]
    split
    · rw [lookup]
    · split
      · next same =>
        subst same
        rw [lookup, lookup]
        split <;> rfl
      · next different =>
        rw [lookup, lookup, ih]
        by_cases here : key.text = asked
        · have other : name.text ≠ asked := fun there =>
            different (Identifier.ext (here.trans there.symm))
          simp [here, other]
        · simp [here]

theorem lookup_drop (name asked : String) (entries : Entries) :
    lookup asked (drop name entries) = if asked = name then none else lookup asked entries := by
  induction entries with
  | nil => simp [drop, lookup]
  | cons head more ih =>
    obtain ⟨key, old⟩ := head
    by_cases same : key.text = name
    · have gone : drop name ((key, old) :: more) = drop name more := by simp [drop, same]
      rw [gone, ih, lookup]
      split
      · rfl
      · next other => rw [if_neg fun here => other (here.symm.trans same)]
    · have kept : drop name ((key, old) :: more) = (key, old) :: drop name more := by
        simp [drop, same]
      rw [kept, lookup, lookup, ih]
      by_cases here : key.text = asked
      · have other : asked ≠ name := fun there => same (here.trans there)
        simp [here, other]
      · simp [here]

/-! ### A context is what it maps names to -/

theorem mem_of_lookup {asked : String} {body : Block} {entries : Entries}
    (found : lookup asked entries = some body) :
    ∃ key, key.text = asked ∧ (key, body) ∈ entries := by
  induction entries with
  | nil => cases found
  | cons head more ih =>
    obtain ⟨key, old⟩ := head
    rw [lookup] at found
    split at found
    · next here =>
      cases found
      exact ⟨key, here, List.mem_cons_self⟩
    · obtain ⟨key', here, member⟩ := ih found
      exact ⟨key', here, List.mem_cons_of_mem _ member⟩

/-- In sorted entries a name stands for a block exactly if they are an entry. -/
theorem lookup_eq_some_iff {asked : String} {body : Block} {entries : Entries}
    (sorted : Sorted entries) :
    lookup asked entries = some body ↔
      ∃ entry ∈ entries, entry.1.text = asked ∧ entry.2 = body := by
  induction entries with
  | nil => simp [lookup]
  | cons head more ih =>
    obtain ⟨key, old⟩ := head
    obtain ⟨above, tailSorted⟩ := List.pairwise_cons.mp sorted
    rw [lookup]
    split
    · next here =>
      constructor
      · intro found
        exact ⟨(key, old), List.mem_cons_self, here, Option.some.inj found⟩
      · rintro ⟨entry, member, there, rfl⟩
        rcases List.mem_cons.mp member with rfl | behind
        · rfl
        · have apart := above entry behind
          rw [there, here] at apart
          exact absurd apart (String.lt_irrefl _)
    · next other =>
      rw [ih tailSorted]
      constructor
      · rintro ⟨entry, member, same⟩
        exact ⟨entry, List.mem_cons_of_mem _ member, same⟩
      · rintro ⟨entry, member, there, same⟩
        rcases List.mem_cons.mp member with rfl | behind
        · exact absurd there other
        · exact ⟨entry, behind, there, same⟩

theorem lookup_eq_none {asked : String} {entries : Entries}
    (absent : ∀ entry ∈ entries, entry.1.text ≠ asked) : lookup asked entries = none := by
  induction entries with
  | nil => rfl
  | cons head more ih =>
    obtain ⟨key, old⟩ := head
    rw [lookup, if_neg (absent (key, old) List.mem_cons_self)]
    exact ih fun entry member => absent entry (List.mem_cons_of_mem _ member)

/-- A name that stands for nothing gets an entry between those that are there. -/
theorem exists_place_eq {name : Identifier} {entries : Entries}
    (absent : lookup name.text entries = none) (body : Block) :
    ∃ front back, entries = front ++ back ∧
      place name body entries = front ++ (name, body) :: back := by
  induction entries with
  | nil => exact ⟨[], [], rfl, rfl⟩
  | cons head more ih =>
    obtain ⟨key, old⟩ := head
    have other : key ≠ name := by
      rintro rfl
      simp [lookup] at absent
    rw [lookup, if_neg fun same => other (Identifier.ext same)] at absent
    rw [place]
    split
    · exact ⟨[], (key, old) :: more, rfl, rfl⟩
    · obtain ⟨front, back, rfl, placed⟩ := ih absent
      exact ⟨(key, old) :: front, back, rfl, by rw [placed, List.cons_append]⟩

private theorem lookup_behind {key : Identifier} {old : Block} {more : Entries}
    (sorted : Sorted ((key, old) :: more)) : lookup key.text more = none := by
  refine lookup_eq_none fun entry member same => ?_
  have above := (List.pairwise_cons.mp sorted).1 entry member
  rw [same] at above
  exact String.lt_irrefl _ above

/-- Sorted entries that map every name alike are equal. -/
theorem eq_of_lookup {first second : Entries} (firstSorted : Sorted first)
    (secondSorted : Sorted second) (alike : ∀ asked, lookup asked first = lookup asked second) :
    first = second := by
  induction first generalizing second with
  | nil =>
    cases second with
    | nil => rfl
    | cons head more => simpa [lookup] using alike head.1.text
  | cons head more ih =>
    obtain ⟨key, body⟩ := head
    cases second with
    | nil => simpa [lookup] using alike key.text
    | cons head' more' =>
      obtain ⟨key', body'⟩ := head'
      have sameKey : key = key' := by
        refine Decidable.byContradiction fun different => ?_
        have apart : key.text ≠ key'.text := fun same => different (Identifier.ext same)
        have inSecond : lookup key.text more' = some body := by
          simpa [lookup, apart.symm] using (alike key.text).symm
        have inFirst : lookup key'.text more = some body' := by
          simpa [lookup, apart] using alike key'.text
        obtain ⟨k, hk, member⟩ := mem_of_lookup inSecond
        obtain ⟨k', hk', member'⟩ := mem_of_lookup inFirst
        have below := (List.pairwise_cons.mp firstSorted).1 _ member'
        have above := (List.pairwise_cons.mp secondSorted).1 _ member
        rw [hk'] at below
        rw [hk] at above
        exact String.lt_asymm below above
      subst sameKey
      have sameBody : body = body' := by simpa [lookup] using alike key.text
      subst sameBody
      have sameMore : more = more' := by
        refine ih (List.pairwise_cons.mp firstSorted).2 (List.pairwise_cons.mp secondSorted).2
          fun asked => ?_
        by_cases here : key.text = asked
        · subst here
          rw [lookup_behind firstSorted, lookup_behind secondSorted]
        · simpa [lookup, here] using alike asked
      rw [sameMore]

end Context

/-- The instructions that a program defines, in increasing order of their names. -/
structure Context where
  entries : Context.Entries
  sorted : Context.Sorted entries
  definable : Context.Definable entries
  deriving DecidableEq

namespace Context

/-- The context that defines nothing. -/
def empty : Context := ⟨[], .nil, by simp [Definable]⟩

/-- The names that a context defines, in increasing order. -/
def names (context : Context) : List String := context.entries.map fun entry => entry.1.text

/-- The block that a name stands for. -/
def find? (context : Context) (name : String) : Option Block := lookup name context.entries

/-- The context in which a name, if it is not built in, stands for a block. -/
def put (context : Context) (name : Identifier) (body : Block)
    (free : Word.isPrimitive name.text = false) : Context :=
  ⟨place name body context.entries, sorted_place name body context.sorted,
    definable_place free context.definable⟩

/-- The context in which a name stands for nothing. -/
def remove (context : Context) (name : String) : Context :=
  ⟨drop name context.entries, sorted_drop name context.sorted,
    definable_drop name context.definable⟩

@[simp] theorem find?_empty (asked : String) : empty.find? asked = none := rfl

/-- A definition gives its name a meaning and leaves every other name alone. -/
theorem find?_put (context : Context) (name : Identifier) (body : Block)
    (free : Word.isPrimitive name.text = false) (asked : String) :
    (context.put name body free).find? asked =
      if name.text = asked then some body else context.find? asked :=
  lookup_place name body asked context.entries

/-- A removal takes a name's meaning away and leaves every other name alone. -/
theorem find?_remove (context : Context) (name asked : String) :
    (context.remove name).find? asked = if asked = name then none else context.find? asked :=
  lookup_drop name asked context.entries

/-- Contexts that map every name alike are equal. -/
theorem ext_find? {first second : Context}
    (alike : ∀ asked, first.find? asked = second.find? asked) : first = second := by
  have same : first.entries = second.entries := eq_of_lookup first.sorted second.sorted alike
  cases first; cases second; cases same; rfl

/-- What a name stands for is an entry, with a name that is not built in. -/
theorem exists_key {context : Context} {name : String} {body : Block}
    (found : context.find? name = some body) :
    ∃ key : Identifier, key.text = name ∧ Word.isPrimitive key.text = false := by
  obtain ⟨key, same, member⟩ := mem_of_lookup found
  exact ⟨key, same, context.definable _ member⟩

/-- A name that is removed and defined as before leaves the context as it was. -/
theorem put_remove {context : Context} {key : Identifier} {body : Block}
    (found : context.find? key.text = some body) (free : Word.isPrimitive key.text = false) :
    (context.remove key.text).put key body free = context := by
  refine ext_find? fun asked => ?_
  rw [find?_put, find?_remove]
  by_cases here : key.text = asked
  · rw [if_pos here, ← here, found]
  · rw [if_neg here, if_neg (Ne.symm here)]

end Context

end BlockLanguage
