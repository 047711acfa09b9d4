import BatteryBench.Number.Fixed

/-!
# The shortest numeral that reads back

A free-form number is written with the fewest digits that read back as the same number, in plain
positional form without an exponent.

The search goes over the grids of multiples of `10 ^ k`, from the coarsest on. On each grid only the
two neighbours of the magnitude are tried: if any point of a grid reads back, one of them does. The
first grid with such a point wins; of two points the nearer is taken and on a tie the upper. The
finest grid, `10 ^ -149`, contains every magnitude exactly, so the search always ends with a numeral
that reads back.
-/

namespace BatteryBench

namespace Binary32

/-- The magnitude in multiples of `10 ^ k` as a quotient of natural numbers. -/
def onGrid (units : Nat) (k : Int) : Nat × Nat :=
  match k with
  | .ofNat e => (units, unitsPerOne * Nat.pow 10 e)
  | .negSucc e => (units * Nat.pow 10 (e + 1), unitsPerOne)

/-- Whether `coefficient * 10 ^ k` reads back as the magnitude with the given code. -/
def readsBack (code coefficient : Nat) (k : Int) : Bool :=
  Numeral.magnitudeCode coefficient k == code

/-- The multiple of `10 ^ k` next to the magnitude that reads back as it. -/
def neighbour? (v : Binary32) (k : Int) : Option Nat :=
  let (num, den) := onGrid v.units k
  let below := num / den
  if readsBack v.code below k then
    if readsBack v.code (below + 1) k && decide (den ≤ 2 * (num % den)) then some (below + 1)
    else some below
  else if readsBack v.code (below + 1) k then some (below + 1)
  else none

/-- The shortest numeral on the grids from `10 ^ (n - 149)` down. -/
def shortestFrom (v : Binary32) : Nat → Nat × Int
  | 0 => (v.units * Nat.pow 5 149, -149)
  | n + 1 =>
    match v.neighbour? ((n : Int) - 148) with
    | some coefficient => (coefficient, (n : Int) - 148)
    | none => shortestFrom v n

/-- The coefficient and the power of ten of the shortest numeral for a finite magnitude. No
magnitude reaches `10 ^ 39`, so no coarser grid is tried. -/
def shortest (v : Binary32) : Nat × Int := v.shortestFrom 187

/-- `coefficient * 10 ^ k` in positional form. -/
def positional (coefficient : Nat) (k : Int) : Text :=
  match k with
  | .ofNat e => if coefficient = 0 then ['0'] else decimal coefficient ++ List.replicate e '0'
  | .negSucc e => fixedDigits (e + 1) coefficient

/-- A number in the shortest positional form that reads back. -/
def shortestText (v : Binary32) : Text :=
  if v.isFinite then v.signText ++ positional v.shortest.1 v.shortest.2 else v.nonFiniteText

end Binary32

end BatteryBench
