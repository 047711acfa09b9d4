/-!
# Rounding a quotient to an integer

`roundHalfEven num den` is the integer nearest to `num / den`, and the even one of two equally near
ones. It is the only rounding of this library: reading a decimal numeral and writing a number with a
fixed count of places both come down to it. All of it is exact arithmetic on natural numbers.

The law is stated by multiplying out: twice the distance to the quotient is at most one unit
(`two_mul_roundHalfEven_le` and `le_two_mul_roundHalfEven`), and on a tie the result is even
(`roundHalfEven_even_of_tie`).
-/

namespace BatteryBench

/-- The integer nearest to `num / den`; of two equally near ones, the even one. -/
def roundHalfEven (num den : Nat) : Nat :=
  if 2 * (num % den) < den ∨ 2 * (num % den) = den ∧ num / den % 2 = 0 then num / den
  else num / den + 1

theorem roundHalfEven_mul_self {den : Nat} (h : 0 < den) (n : Nat) :
    roundHalfEven (n * den) den = n := by
  simp [roundHalfEven, h]

/-- The result exceeds the quotient by at most half a unit. -/
theorem two_mul_roundHalfEven_le {num den : Nat} (h : 0 < den) :
    2 * (roundHalfEven num den * den) ≤ 2 * num + den := by
  have hdiv := Nat.div_add_mod num den
  have hlt := Nat.mod_lt num h
  have hcomm : num / den * den = den * (num / den) := Nat.mul_comm _ _
  have hnext : (num / den + 1) * den = num / den * den + den := Nat.succ_mul _ _
  rw [roundHalfEven]
  split <;> omega

/-- The result falls short of the quotient by at most half a unit. -/
theorem le_two_mul_roundHalfEven {num den : Nat} (h : 0 < den) :
    2 * num ≤ 2 * (roundHalfEven num den * den) + den := by
  have hdiv := Nat.div_add_mod num den
  have hlt := Nat.mod_lt num h
  have hcomm : num / den * den = den * (num / den) := Nat.mul_comm _ _
  have hnext : (num / den + 1) * den = num / den * den + den := Nat.succ_mul _ _
  rw [roundHalfEven]
  split <;> omega

/-- A quotient that lies in the middle between two integers goes to the even one. -/
theorem roundHalfEven_even_of_tie {num den : Nat} (h : 2 * (num % den) = den) :
    roundHalfEven num den % 2 = 0 := by
  rw [roundHalfEven]
  split <;> omega

end BatteryBench
