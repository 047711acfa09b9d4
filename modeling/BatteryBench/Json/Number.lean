import BatteryBench.Number.Binary64
import BatteryBench.Text.Basic

/-!
# JSON numbers

A number as its text gives it: digits alone, or digits with a point or an exponent. The first sort
may be an integer of some width; the second never is, whatever its value.

A number that has to be kept is converted to binary64, and one that becomes infinity is refused
(`JsonNumber.isFinite`). The conversion is a quick one. Digits are taken into a word of 64 bits up
to the first that does not fit: digits left out before the point count as places, and digits left
out after it are forgotten. What the word holds is rounded to binary64 and multiplied, in binary64,
by the nearest power of ten. The rounding happens up to three times, so the result need not be the
nearest number, and next to the greatest finite number one value may be kept or refused depending on
how it is written.
-/

namespace BatteryBench

/-- A decimal digit. -/
abbrev Digit := Fin 10

/-- A number as JSON writes it. -/
inductive JsonNumber where
  /-- Digits alone, with a sign. -/
  | integer (negative : Bool) (magnitude : Nat)
  /-- Digits with a point or an exponent: the digits before the point as one number, the digits
  after it, and the power of ten that all of them are multiplied by. -/
  | scientific (negative : Bool) (whole : Nat) (fraction : List Digit) (exponent : Int)
  deriving DecidableEq

/-- The digit that a character from `0` to `9` is. -/
def digitOfChar (c : Char) : Digit := Fin.ofNat 10 (c.toNat - '0'.toNat)

/-- The digits of a natural number. -/
def digitsOf (n : Nat) : List Digit := (decimal n).map digitOfChar

/-- The number that digits continue, up to the first digit by which it would not fit into 64 bits,
and how many digits are left out. -/
def holdDigits : Nat → List Digit → Nat × Nat
  | held, [] => (held, 0)
  | held, d :: ds =>
    if 10 * held + d.val < 0x10000000000000000 then holdDigits (10 * held + d.val) ds
    else (held, ds.length + 1)

namespace JsonNumber

/-! ### Range -/

/-- The word that holds the leading digits of a number, and the power of ten that belongs to it. -/
def significand (whole : Nat) (fraction : List Digit) (exponent : Int) : Nat × Int :=
  let (held, cut) := holdDigits 0 (digitsOf whole)
  let (held, forgotten) := holdDigits held fraction
  (held, exponent + cut - ((fraction.length - forgotten : Nat) : Int))

/-- Whether the product of a word and a power of ten is finite. No negative power makes it larger,
and beyond `10 ^ 308` there is no finite power. -/
def productIsFinite (held : Nat) : Int → Bool
  | .negSucc _ => true
  | .ofNat e =>
    held == 0 || (decide (e ≤ 308) &&
      !Binary64.overflows (Binary64.nearest held * Binary64.nearest (Nat.pow 10 e)))

/-- Whether a number is finite once it is converted to binary64. -/
def isFinite : JsonNumber → Bool
  | integer _ magnitude =>
    let (held, exponent) := significand magnitude [] 0
    productIsFinite held exponent
  | scientific _ whole fraction exponent =>
    let (held, exponent) := significand whole fraction exponent
    productIsFinite held exponent

/-! ### Integers -/

/-- The integer that is written, if it is written without a point, an exponent or a sign of zero. -/
def toInt? : JsonNumber → Option Int
  | integer false magnitude => some magnitude
  | integer true 0 => none
  | integer true (n + 1) => some (.negSucc n)
  | scientific _ _ _ _ => none

/-- An integer as it is written. -/
def ofInt : Int → JsonNumber
  | .ofNat n => integer false n
  | .negSucc n => integer true (n + 1)

theorem toInt?_ofInt (v : Int) : (ofInt v).toInt? = some v := by cases v <;> rfl

end JsonNumber

end BatteryBench
