import BatteryBench.Text.Basic

/-!
# Integers in replies

A unit writes an integer in decimal, with an optional sign, or in a marked base: `#H` for sixteen,
`#Q` for eight and `#B` for two, the mark in either case and without a sign. Leading zeros are
allowed everywhere.

Whatever the width a value is wanted in, it is first an integer of 64 bits with a sign: an unsigned
64-bit value is therefore read only up to 2^63 - 1 (`Width.read?`).
-/

namespace BatteryBench

/-! ### Digits -/

/-- The value of a digit, letters of either case included. -/
def digitValue? (c : Char) : Option Nat :=
  if '0' ≤ c ∧ c ≤ '9' then some (c.toNat - '0'.toNat)
  else if 'a' ≤ c ∧ c ≤ 'f' then some (c.toNat - 'a'.toNat + 10)
  else if 'A' ≤ c ∧ c ≤ 'F' then some (c.toNat - 'A'.toNat + 10)
  else none

/-- The value of a digit of the given base. -/
def digitOf? (base : Nat) (c : Char) : Option Nat := (digitValue? c).filter (· < base)

/-- The number that a run of digits continues: `acc` is what the digits before it came to. -/
def digitsFrom? (base : Nat) : Nat → Text → Option Nat
  | acc, [] => some acc
  | acc, c :: rest =>
    match digitOf? base c with
    | some d => digitsFrom? base (base * acc + d) rest
    | none => none

/-- The number that one or more digits of a base write. -/
def natural? (base : Nat) (t : Text) : Option Nat :=
  if t = [] then none else digitsFrom? base 0 t

/-! ### Integers -/

/-- The number that decimal digits after an optional sign write. -/
def decimalInteger? : Text → Option Int
  | '-' :: rest => (natural? 10 rest).map fun n ↦ -(n : Int)
  | '+' :: rest => (natural? 10 rest).map fun n ↦ (n : Int)
  | t => (natural? 10 t).map fun n ↦ (n : Int)

/-- The base that a mark after `#` announces. -/
def markedBase? (c : Char) : Option Nat :=
  if c = 'H' ∨ c = 'h' then some 16
  else if c = 'Q' ∨ c = 'q' then some 8
  else if c = 'B' ∨ c = 'b' then some 2
  else none

/-- The number a text writes, in decimal or in a marked base. -/
def integer? : Text → Option Int
  | '#' :: mark :: rest =>
    match markedBase? mark with
    | some base => (natural? base rest).map fun n ↦ (n : Int)
    | none => none
  | t => decimalInteger? t

/-! ### Widths -/

/-- A kind of machine integer: how many bits it has, and whether one of them is a sign. -/
structure Width where
  /-- Whether negative numbers are included. -/
  signed : Bool
  /-- The number of bits. -/
  bits : Nat
  deriving DecidableEq, Repr

namespace Width

/-- The least integer of the width. -/
def least (w : Width) : Int := if w.signed then -(Nat.pow 2 (w.bits - 1) : Int) else 0

/-- The greatest integer of the width. -/
def greatest (w : Width) : Int :=
  if w.signed then (Nat.pow 2 (w.bits - 1) : Int) - 1 else (Nat.pow 2 w.bits : Int) - 1

/-- Whether an integer has the width. -/
def contains (w : Width) (v : Int) : Bool := decide (w.least ≤ v) && decide (v ≤ w.greatest)

/-- Signed integers of 8 bits. -/
def int8 : Width := ⟨true, 8⟩
/-- Unsigned integers of 8 bits. -/
def uint8 : Width := ⟨false, 8⟩
/-- Signed integers of 16 bits. -/
def int16 : Width := ⟨true, 16⟩
/-- Unsigned integers of 16 bits. -/
def uint16 : Width := ⟨false, 16⟩
/-- Signed integers of 32 bits. -/
def int32 : Width := ⟨true, 32⟩
/-- Unsigned integers of 32 bits. -/
def uint32 : Width := ⟨false, 32⟩
/-- Signed integers of 64 bits. -/
def int64 : Width := ⟨true, 64⟩
/-- Unsigned integers of 64 bits. -/
def uint64 : Width := ⟨false, 64⟩

theorem contains_iff {w : Width} {v : Int} : w.contains v ↔ w.least ≤ v ∧ v ≤ w.greatest := by
  simp [contains]

/-- The integer of the width that a text writes, padding aside. It has to be a signed 64-bit integer
as well. -/
def read? (w : Width) (t : Text) : Option Int :=
  (integer? (trim t)).filter fun v ↦ int64.contains v && w.contains v

/-- What is read is an integer of the width. -/
theorem contains_of_read? {w : Width} {t : Text} {v : Int} (h : w.read? t = some v) :
    w.contains v := by
  have hboth := (Option.filter_eq_some_iff.mp h).2
  rw [Bool.and_eq_true] at hboth
  exact hboth.2

end Width

end BatteryBench
