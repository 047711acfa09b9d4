import BatteryBench.Number.Binary32
import BatteryBench.Number.Integer

/-!
# Decimal numerals

A numeral is a sign, a natural coefficient and a power of ten. Its text is an optional sign, digits
with at most one point and at least one digit, and optionally `e` or `E` with a signed exponent. An
exponent is counted until it has passed 65535, which no number of the format comes near.

`Numeral.toBinary32` is the nearest binary32 number, computed exactly. Powers of ten far outside the
range of the format are decided by their size alone, so that a short text never makes a long
computation: from 10^40 on everything is infinite, and below 10^-46 everything is zero.

Where a number is read in a reply, the words for infinity and for what is no number stand beside the
numerals (`binary32?`), in either case and with an optional sign.
-/

namespace BatteryBench

/-- A decimal numeral: `coefficient * 10 ^ exponent`, with a sign. -/
structure Numeral where
  /-- Whether the numeral has a minus sign. -/
  negative : Bool
  /-- The digits as one natural number, the point left out. -/
  coefficient : Nat
  /-- The power of ten of the last digit. -/
  exponent : Int
  deriving DecidableEq, Repr

namespace Numeral

/-! ### Reading -/

/-- The sign a text starts with, plus if none is written, and the text after it. -/
def splitSign : Text → Bool × Text
  | '-' :: rest => (true, rest)
  | '+' :: rest => (false, rest)
  | t => (false, t)

/-- The exponent that digits continue. Digits after it has passed 65535 are looked at and change
nothing. -/
def exponentFrom? : Nat → Text → Option Nat
  | e, [] => some e
  | e, c :: rest =>
    match digitOf? 10 c with
    | some d => exponentFrom? (if e < 0x10000 then 10 * e + d else e) rest
    | none => none

/-- The exponent that one or more digits after an optional sign write. -/
def signedExponent? (t : Text) : Option Int :=
  let (negative, digits) := splitSign t
  if digits = [] then none
  else (exponentFrom? 0 digits).map fun e ↦ if negative then -(e : Int) else e

/-- The exponent that a text after the digits writes; none is zero. -/
def exponent? : Text → Option Int
  | [] => some 0
  | mark :: rest => if mark = 'e' ∨ mark = 'E' then signedExponent? rest else none

/-- The digits before and after the point of the unsigned numeral a text starts with, and the text
that follows them. -/
def splitDigits (t : Text) : Text × Text × Text :=
  let whole := t.takeWhile Char.isDigit
  match t.dropWhile Char.isDigit with
  | '.' :: rest => (whole, rest.takeWhile Char.isDigit, rest.dropWhile Char.isDigit)
  | rest => (whole, [], rest)

/-- The numeral that a text without a sign writes. -/
def unsigned? (negative : Bool) (t : Text) : Option Numeral :=
  let (whole, fraction, rest) := splitDigits t
  match natural? 10 (whole ++ fraction), exponent? rest with
  | some coefficient, some e => some ⟨negative, coefficient, e - fraction.length⟩
  | _, _ => none

/-- The numeral that a text writes. -/
def read? (t : Text) : Option Numeral := unsigned? (splitSign t).1 (splitSign t).2

/-! ### The nearest binary32 number -/

/-- The code of the magnitude nearest to `coefficient * 10 ^ exponent`. -/
def magnitudeCode (coefficient : Nat) (exponent : Int) : Nat :=
  match exponent with
  | .ofNat e => Binary32.nearestCode (coefficient * Nat.pow 10 e * Binary32.unitsPerOne) 1
  | .negSucc e => Binary32.nearestCode (coefficient * Binary32.unitsPerOne) (Nat.pow 10 (e + 1))

theorem magnitudeCode_lt (coefficient : Nat) (exponent : Int) :
    magnitudeCode coefficient exponent < 0x80000000 := by
  cases exponent <;> exact Binary32.nearestCode_lt _ _

/-- The binary32 number nearest to a numeral, ties to the even code. -/
def toBinary32 (n : Numeral) : Binary32 :=
  if n.coefficient = 0 then ⟨n.negative, 0, by decide⟩
  else if 40 ≤ n.exponent then Binary32.infinity n.negative
  else if Nat.log2 n.coefficient / 3 + 1 + n.exponent < -46 then ⟨n.negative, 0, by decide⟩
  else ⟨n.negative, magnitudeCode n.coefficient n.exponent, magnitudeCode_lt _ _⟩

end Numeral

/-! ### Numbers in replies -/

/-- A letter in lower case; everything else as it is. -/
def lowerCase (c : Char) : Char := c.toLower

/-- The value that a word stands for, whatever the case of its letters. The sign before it is kept,
also where it says nothing. -/
def wordBinary32? (negative : Bool) (t : Text) : Option Binary32 :=
  let word := t.map lowerCase
  if word = "inf" ∨ word = "infinity" then some (Binary32.infinity negative)
  else if word = "nan" then some { Binary32.nan with negative := negative }
  else none

/-- The binary32 number that a text writes, as a numeral or as a word. -/
def binary32? (t : Text) : Option Binary32 :=
  match Numeral.read? t with
  | some n => some n.toBinary32
  | none => wordBinary32? (Numeral.splitSign t).1 (Numeral.splitSign t).2

end BatteryBench
