/-
**Passing over a JSON value.**

A value of no interest still has to be a JSON value. It is passed over item by item: what is kept is
which containers are open, and what may come next. Strings are not decoded, so that a surrogate may
stand alone in them, and a number that is broken off is malformed even where the text ends.
-/

import BlockLanguage.Json.Item

namespace BlockLanguage.Json

/-- A value with items. -/
inductive Container
  | array
  | object
  deriving DecidableEq

/-- What may come next while a value is passed over. -/
inductive Expected
  | value
  | valueOrClose
  | key
  | keyOrClose
  | colon
  | commaOrClose
  deriving DecidableEq

/-- How far a value has been passed over: what may come next, and which containers are open, the
innermost one first. -/
structure Skip where
  expected : Expected
  inside : List Container
  deriving DecidableEq

namespace Skip

/-- Nothing has been passed over. -/
def start : Skip := ⟨.value, []⟩

/-- The whole value has been passed over. -/
def finished : Skip := ⟨.commaOrClose, []⟩

/-- Passes over an item that begins a value. -/
def value (inside : List Container) : Item → Except Fault Skip
  | .string _ none | .number _ | .word => .ok ⟨.commaOrClose, inside⟩
  | .string _ (some fault) => .error fault
  | .openArray => .ok ⟨.valueOrClose, .array :: inside⟩
  | .openObject => .ok ⟨.keyOrClose, .object :: inside⟩
  | .brokenWord atEnd => .error (.brokenAt atEnd)
  | _ => .error .malformed

/-- Passes over a key. -/
def key (inside : List Container) : Item → Except Fault Skip
  | .string _ none => .ok ⟨.colon, inside⟩
  | .string _ (some fault) => .error fault
  | _ => .error .malformed

/-- Passes over an item behind a value. -/
def behind : List Container → Item → Except Fault Skip
  | .array :: inside, .comma => .ok ⟨.value, .array :: inside⟩
  | .array :: inside, .closeArray => .ok ⟨.commaOrClose, inside⟩
  | .object :: inside, .comma => .ok ⟨.key, .object :: inside⟩
  | .object :: inside, .closeObject => .ok ⟨.commaOrClose, inside⟩
  | _, _ => .error .malformed

/-- Passes over an item. -/
def step (skip : Skip) (item : Item) : Except Fault Skip :=
  match skip.expected with
  | .value => value skip.inside item
  | .valueOrClose =>
    if item = .closeArray then behind skip.inside item else value skip.inside item
  | .key => key skip.inside item
  | .keyOrClose => if item = .closeObject then behind skip.inside item else key skip.inside item
  | .colon => if item = .colon then .ok ⟨.value, skip.inside⟩ else .error .malformed
  | .commaOrClose => behind skip.inside item

end Skip

end BlockLanguage.Json
