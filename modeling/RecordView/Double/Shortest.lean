import RecordView.Double.Basic

/-!
# The shortest decimal of a double

The reals that round to a positive double form an interval around it, ends included exactly when
the significand is even.  Of the multiples of a power of ten in that interval, those of the
greatest power have the fewest digits; `Double.shortest` is the one of them nearest to the double,
the upper one on a tie.

The interval is kept in integers, in units of a quarter of the last place.
-/

namespace RecordView

/-- The decimal number `coefficient · 10 ^ exponent`. -/
structure Decimal where
  coefficient : Nat
  exponent : Int
deriving DecidableEq, Repr, Inhabited

namespace Double

/-- Naturals `(up, down)` with `up / down = 2 ^ (exponent - 2) / 10 ^ power`: a quarter of the last
place, measured in units of `10 ^ power`. -/
def unitOver (x : Double) (power : Int) : Nat × Nat :=
  let e := x.exponent - 2
  (Nat.pow 2 e.toNat * Nat.pow 10 (-power).toNat, Nat.pow 2 (-e).toNat * Nat.pow 10 power.toNat)

/-- Distance from the double down to the lower end of its interval, in quarters of the last place.
Below a power of two the spacing is halved. -/
def lowerGap (x : Double) : Nat :=
  if x.significand = implicitBit ∧ x.exponent ≠ -1074 then 1 else 2

/-- The multiple of `10 ^ power` nearest to the absolute value of `x`, among those that round
to `x`. -/
def nearestMultiple? (x : Double) (power : Int) : Option Decimal :=
  let (up, down) := x.unitOver power
  let value := 4 * x.significand * up
  let low := (4 * x.significand - x.lowerGap) * up
  let high := (4 * x.significand + 2) * up
  let inside (n : Nat) : Bool :=
    if x.significand % 2 = 0 then low ≤ n * down && n * down ≤ high
    else low < n * down && n * down < high
  let floor := value / down
  match inside floor, inside (floor + 1) with
  | true, true =>
    if 2 * (value % down) < down then some ⟨floor, power⟩ else some ⟨floor + 1, power⟩
  | true, false => some ⟨floor, power⟩
  | false, true => some ⟨floor + 1, power⟩
  | false, false => none

/-- The powers of ten in which a double can have its last digit, greatest first. -/
def decimalPowers : List Int :=
  (List.range 652).map fun (i : Nat) => 309 - (i : Int)

/-- The shortest decimal that rounds to the absolute value of a finite double. -/
def shortest (x : Double) : Decimal :=
  if x.magnitude = 0 then ⟨0, 0⟩ else (decimalPowers.findSome? x.nearestMultiple?).getD ⟨0, 0⟩

end Double

end RecordView
