import BatteryBench.Number.Decimal

/-!
# Numerals with a fixed count of places

A setpoint is written with a fixed number of digits after the point. The exact value is rounded to
that grid, a tie going to the even last digit (`roundHalfEven`); a minus sign stands exactly before
the numbers with a negative sign, so a negative number that rounds to zero and the negative zero
keep it.
-/

namespace BatteryBench

/-- A natural number of the unit `10 ^ -places`, written with that many digits after the point. -/
def fixedDigits (places n : Nat) : Text :=
  if places = 0 then decimal n
  else
    let fraction := decimal (n % Nat.pow 10 places)
    decimal (n / Nat.pow 10 places) ++
      '.' :: (List.replicate (places - fraction.length) '0' ++ fraction)

namespace Binary32

/-- The sign as it is written. -/
def signText (v : Binary32) : Text := if v.negative then ['-'] else []

/-- The word for a value that has no numeral. -/
def nonFiniteText (v : Binary32) : Text := if v.isNaN then "NaN" else v.signText ++ "inf"

/-- The magnitude of a finite number rounded to a whole number of `10 ^ -places`. -/
def toPlaces (places : Nat) (v : Binary32) : Nat :=
  roundHalfEven (v.units * Nat.pow 10 places) unitsPerOne

/-- A number written with a fixed count of digits after the point. -/
def fixedText (places : Nat) (v : Binary32) : Text :=
  if v.isFinite then v.signText ++ fixedDigits places (v.toPlaces places) else v.nonFiniteText

end Binary32

end BatteryBench
