import BatteryBench.Number.Rounding

/-!
# Binary32 numbers

The numbers a unit is set to and reports are IEEE 754 binary32. A number is held as its sign and its
*code*, the other 31 bits read as a natural number. Codes are in the order of the magnitudes, so the
code below or above a number is its neighbour, and comparing is comparing codes.

Every finite magnitude is a whole multiple of 2^-149; `units` is that multiple. It turns every
question about a value into one about natural numbers: `nearestCode num den` is the code of the
number nearest to `num / den` units, ties to the even code, with everything from halfway above the
greatest finite number on going to the code of infinity.
-/

namespace BatteryBench

/-- An IEEE 754 binary32 number. -/
structure Binary32 where
  /-- The sign bit. -/
  negative : Bool
  /-- The exponent and fraction bits as one natural number. -/
  code : Nat
  /-- There are 31 of these bits. -/
  code_lt : code < 0x80000000
  deriving DecidableEq, Repr

namespace Binary32

/-! ### Codes -/

/-- The code of infinity; codes above it are those of the values that are no number. -/
def infinityCode : Nat := 0x7f800000

/-- The number of codes in a binade, which is also the least significand of a normal number. -/
def binadeSize : Nat := 0x800000

/-- The number of units in one. -/
def unitsPerOne : Nat := Nat.pow 2 149

/-- The magnitude of a finite code in units of 2^-149. -/
def unitsOfCode (code : Nat) : Nat :=
  if code < binadeSize then code
  else (binadeSize + code % binadeSize) * Nat.pow 2 (code / binadeSize - 1)

/-- The code of the magnitude nearest to `num / den` units; a tie goes to the even code. All binades
have the same number of codes, so the position of the binade and the rounded significand add up to
the code, also when rounding carries into the next binade. -/
def nearestCode (num den : Nat) : Nat :=
  let binade := Nat.log2 (num / den) - 23
  min (binade * binadeSize + roundHalfEven num (den * Nat.pow 2 binade)) infinityCode

theorem nearestCode_lt (num den : Nat) : nearestCode num den < 0x80000000 :=
  Nat.lt_of_le_of_lt (Nat.min_le_right _ _) (by decide)

/-! ### Values -/

/-- Whether the value is a number at all. -/
def isNaN (v : Binary32) : Bool := decide (infinityCode < v.code)

/-- Whether the value is a finite number. -/
def isFinite (v : Binary32) : Bool := decide (v.code < infinityCode)

/-- The magnitude of a finite number in units of 2^-149. -/
def units (v : Binary32) : Nat := unitsOfCode v.code

/-- Infinity of a sign. -/
def infinity (negative : Bool) : Binary32 := ⟨negative, infinityCode, by decide⟩

/-- The quiet value that is no number. -/
def nan : Binary32 := ⟨false, 0x7fc00000, by decide⟩

/-- The number of a sign whose magnitude is nearest to `num / den` units. -/
def nearest (negative : Bool) (num den : Nat) : Binary32 :=
  ⟨negative, nearestCode num den, nearestCode_lt num den⟩

/-- The number nearest to an integer; zero has a positive sign. -/
def ofInt (n : Int) : Binary32 := nearest (decide (n < 0)) (n.natAbs * unitsPerOne) 1

/-- The number of a bit pattern. -/
def ofBits (bits : UInt32) : Binary32 :=
  ⟨decide (0x80000000 ≤ bits.toNat), bits.toNat % 0x80000000, Nat.mod_lt _ (by decide)⟩

/-- The bit pattern of a number. -/
def toBits (v : Binary32) : UInt32 :=
  UInt32.ofNat (if v.negative then 0x80000000 + v.code else v.code)

theorem ofBits_toBits (v : Binary32) : ofBits v.toBits = v := by
  obtain ⟨negative, code, hlt⟩ := v
  cases negative <;> simp only [toBits, ofBits, Binary32.mk.injEq] <;> simp <;> omega

/-! ### Order -/

/-- The place of a number in the order of the numbers; both zeros have the same. -/
def rank (v : Binary32) : Int := if v.negative then -(v.code : Int) else v.code

/-- Whether a number is less than another; nothing is less or greater than what is no number. -/
def lt (v w : Binary32) : Bool := !v.isNaN && !w.isNaN && decide (v.rank < w.rank)

/-- The number between two bounds nearest to the given one. What is no number stays as it is, and so
does a zero of either sign at a bound that is zero. -/
def clamp (v low high : Binary32) : Binary32 :=
  if v.lt low then low else if high.lt v then high else v

end Binary32

end BatteryBench
