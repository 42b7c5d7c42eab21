/-
**Numbers of a JSON text, and what may be wrong with it.**

A number is read digit by digit, and kept as it is written. `count` is its meaning where a whole
number of 64 bits is wanted: then nothing but a plain sequence of digits will do. Numbers too great
even for binary64 are malformed; what is compared is the value of the first digits that fit into 64
bits, scaled by a power of ten, with both factors rounded to binary64 first.
-/

namespace BlockLanguage.Json

/-- The first thing that is wrong with a JSON text, from left to right. -/
inductive Fault
  /-- The text breaks the rules of JSON. -/
  | malformed
  /-- The text holds another value than the one that is wanted. -/
  | unsuitable
  /-- The text ends too early. -/
  | truncated
  deriving DecidableEq

/-- The fault of a text that is broken off, or wrong, at some place. -/
def Fault.brokenAt (atEnd : Bool) : Fault := if atEnd then truncated else malformed

/-- A number as it is written: its sign, the digits before and behind the point, and its exponent,
which is negative or not. -/
structure Number where
  negative : Bool
  whole : List Char
  fraction : List Char
  exponent : Option (Bool × List Char)
  deriving DecidableEq

namespace Number

/-! ### Reading -/

/-- One digit at least; where there is none, whether the text ends there. -/
def someDigits (text : List Char) : Except Bool (List Char × List Char) :=
  match text.takeWhile Char.isDigit with
  | [] => .error text.isEmpty
  | digits => .ok (digits, text.dropWhile Char.isDigit)

/-- The digits behind a point, if there is a point. -/
def scanFraction : List Char → Except Bool (List Char × List Char)
  | '.' :: rest => someDigits rest
  | rest => .ok ([], rest)

/-- The sign of an exponent; only a minus makes it negative. -/
def scanSign : List Char → Bool × List Char
  | '-' :: rest => (true, rest)
  | '+' :: rest => (false, rest)
  | rest => (false, rest)

/-- The exponent behind the letter E, if there is one. -/
def scanExponent : List Char → Except Bool (Option (Bool × List Char) × List Char)
  | [] => .ok (none, [])
  | c :: rest =>
    if c = 'e' || c = 'E' then
      match someDigits (scanSign rest).2 with
      | .error atEnd => .error atEnd
      | .ok (digits, behind) => .ok (some ((scanSign rest).1, digits), behind)
    else .ok (none, c :: rest)

/-- The number behind a sign, and the text behind it; a number of several digits does not begin with
a zero. Where this is no number, whether the text ends there. -/
def scan (negative : Bool) (text : List Char) : Except Bool (Number × List Char) :=
  match someDigits text with
  | .error atEnd => .error atEnd
  | .ok (whole, behindWhole) =>
    if whole.head? = some '0' && 1 < whole.length then .error false
    else
      match scanFraction behindWhole with
      | .error atEnd => .error atEnd
      | .ok (fraction, behindFraction) =>
        match scanExponent behindFraction with
        | .error atEnd => .error atEnd
        | .ok (exponent, rest) => .ok (⟨negative, whole, fraction, exponent⟩, rest)

/-! ### Reading takes characters -/

private theorem length_someDigits {text digits rest : List Char}
    (read : someDigits text = .ok (digits, rest)) : rest.length < text.length := by
  unfold someDigits at read
  split at read
  · cases read
  · next some =>
    cases read
    have parts := congrArg List.length
      (List.takeWhile_append_dropWhile (p := Char.isDigit) (l := text))
    have nonempty := List.length_pos_iff.mpr some
    rw [List.length_append] at parts
    omega

private theorem length_scanFraction {text digits rest : List Char}
    (read : scanFraction text = .ok (digits, rest)) : rest.length ≤ text.length := by
  unfold scanFraction at read
  split at read
  · have shorter := length_someDigits read
    rw [List.length_cons]
    omega
  · cases read
    exact Nat.le_refl _

private theorem length_scanSign (text : List Char) : (scanSign text).2.length ≤ text.length := by
  unfold scanSign
  split <;> simp

private theorem length_scanExponent {text rest : List Char} {exponent : Option (Bool × List Char)}
    (read : scanExponent text = .ok (exponent, rest)) : rest.length ≤ text.length := by
  unfold scanExponent at read
  split at read
  · cases read
    exact Nat.le_refl _
  · next c behind =>
    have sign := length_scanSign behind
    split at read
    · split at read
      · cases read
      · next found =>
        cases read
        have shorter := length_someDigits found
        rw [List.length_cons]
        omega
    · cases read
      exact Nat.le_refl _

/-- A number takes one character at least. -/
theorem length_scan {negative : Bool} {text rest : List Char} {number : Number}
    (read : scan negative text = .ok (number, rest)) : rest.length < text.length := by
  unfold scan at read
  split at read
  · cases read
  · next whole behindWhole first =>
    have shorter := length_someDigits first
    split at read
    · cases read
    · split at read
      · cases read
      · next fraction behindFraction second =>
        have notLonger := length_scanFraction second
        split at read
        · cases read
        · next exponent last third =>
          cases read
          have stillNotLonger := length_scanExponent third
          omega

/-! ### Meaning -/

/-- The number that digits spell. -/
def valueOf (digits : List Char) : Nat := Nat.ofDigitChars 10 digits 0

/-- A number with digits behind it, as many of them as fit into 64 bits, and how many these are. -/
def absorb (value : Nat) : List Char → Nat × Nat
  | [] => (value, 0)
  | c :: rest =>
    let next := 10 * value + (c.toNat - '0'.toNat)
    if next < Nat.pow 2 64 then
      let (result, taken) := absorb next rest
      (result, taken + 1)
    else (value, 0)

/-- The digits of a number that fit into 64 bits, and the power of ten by which they are scaled. -/
def scaled (number : Number) : Nat × Int :=
  let (whole, taken) := absorb 0 number.whole
  let (significand, behindPoint) := absorb whole number.fraction
  let shift : Int := (number.whole.length - taken : Nat) - (behindPoint : Int)
  match number.exponent with
  | none => (significand, shift)
  | some (true, digits) => (significand, shift - valueOf digits)
  | some (false, digits) => (significand, shift + valueOf digits)

/-- The nearest number with 53 significant bits, the even one of two that are equally near. -/
def round (value : Nat) : Nat :=
  let unit := Nat.pow 2 (value.log2 + 1 - 53)
  let kept := value / unit
  let cut := value % unit
  if unit < 2 * cut || (unit = 2 * cut && kept % 2 = 1) then (kept + 1) * unit else kept * unit

/-- Whether a number is beyond the greatest one of binary64, half a step included. -/
def overflows (number : Number) : Bool :=
  let (significand, shift) := number.scaled
  match shift with
  | .ofNat power =>
    significand ≠ 0 &&
      (308 < power ||
        Nat.pow 2 1024 - Nat.pow 2 970 ≤ round significand * round (Nat.pow 10 power))
  | .negSucc _ => false

/-- The fault of a number where another kind of value is wanted. -/
def misplaced (number : Number) : Fault := if number.overflows then .malformed else .unsuitable

/-- The whole number of 64 bits that a number is. -/
def count (number : Number) : Except Fault Nat :=
  let value := valueOf number.whole
  if !number.negative && number.fraction.isEmpty && number.exponent.isNone &&
      value < Nat.pow 2 64 then
    .ok value
  else .error number.misplaced

end Number

end BlockLanguage.Json
