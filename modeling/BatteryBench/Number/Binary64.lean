import BatteryBench.Number.Rounding

/-!
# Large natural numbers in binary64

An IEEE 754 binary64 number has 53 significant bits, and there is a greatest finite one. Only these
two facts are of interest here, and only for natural numbers: `Binary64.nearest` rounds to 53 bits,
and `Binary64.overflows` says when a result is so large that it becomes infinity.
-/

namespace BatteryBench

namespace Binary64

/-- The natural number with at most 53 significant bits nearest to the given one; a tie goes to the
one whose last bit is zero. How large it may be is not looked at. -/
def nearest (n : Nat) : Nat :=
  let unit := Nat.pow 2 (Nat.log2 n - 52)
  roundHalfEven n unit * unit

/-- The midpoint between the greatest finite number and the power of two above it. -/
def bound : Nat := Nat.pow 2 1024 - Nat.pow 2 970

/-- Whether a result becomes infinity: from the midpoint on, as a tie goes to the power of two. -/
def overflows (n : Nat) : Bool := decide (bound ≤ n)

/-- Up to 53 bits nothing is rounded. -/
theorem nearest_of_lt {n : Nat} (h : n < 0x20000000000000) : nearest n = n := by
  have hunit : Nat.log2 n - 52 = 0 := by
    by_cases h0 : n = 0
    · subst h0
      rfl
    · have := (Nat.log2_lt h0 (k := 53)).mpr h
      omega
  have hone : Nat.pow 2 0 = 1 := rfl
  rw [nearest, hunit, hone, Nat.mul_one]
  simpa using roundHalfEven_mul_self Nat.one_pos n

end Binary64

end BatteryBench
