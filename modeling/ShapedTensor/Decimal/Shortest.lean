import ShapedTensor.Decimal.Format

/-! Only the two neighbours of a datum on a grid of decimals can be nearest to it. -/

namespace ShapedTensor.Decimal

/-- The number `digits * 10 ^ power`. -/
structure Numeral where
  digits : Nat
  power : Int

/-- The values that round to a datum, in quarters of its last place `2 ^ exponent`. -/
structure Interval where
  low : Nat
  centre : Nat
  high : Nat
  closed : Bool
  exponent : Int

/-- The interval of a positive datum: half way to its neighbours, with the ends when it is even. -/
def Interval.around (significand : Nat) (exponent : Int) (denserBelow : Bool) : Interval where
  low := 4 * significand - (if denserBelow then 1 else 2)
  centre := 4 * significand
  high := 4 * significand + 2
  closed := significand % 2 == 0
  exponent := exponent - 2

namespace Interval

/-- A value on the grid of `10 ^ power`, as the numerator over `gridUnit`. -/
def onGrid (interval : Interval) (power : Int) (value : Nat) : Nat :=
  value * Nat.pow 2 interval.exponent.toNat * Nat.pow 10 (-power).toNat

/-- The distance of two points of the grid of `10 ^ power`, in the measure of `onGrid`. -/
def gridUnit (interval : Interval) (power : Int) : Nat :=
  Nat.pow 2 (-interval.exponent).toNat * Nat.pow 10 power.toNat

/-- Whether a point of the grid lies in the interval. -/
def admits (interval : Interval) (power : Int) (digits : Nat) : Bool :=
  let point := digits * interval.gridUnit power
  let low := interval.onGrid power interval.low
  let high := interval.onGrid power interval.high
  if interval.closed then low ≤ point && point ≤ high else low < point && point < high

/-- The point of the grid of `10 ^ power` that reads back and is nearest, the greater of two. -/
def nearest? (interval : Interval) (power : Int) : Option Numeral :=
  let unit := interval.gridUnit power
  let centre := interval.onGrid power interval.centre
  let below := centre / unit
  let above := below + 1
  let upward := above * unit - centre ≤ centre - below * unit
  if interval.admits power above && (upward || !interval.admits power below) then
    some ⟨above, power⟩
  else if interval.admits power below then some ⟨below, power⟩
  else none

/-- The number of zeros between the point and the first digit of a fraction. -/
def leadingZeros (numerator denominator : Nat) : (fuel : Nat) → Nat
  | 0 => 0
  | fuel + 1 =>
      if denominator ≤ 10 * numerator then 0
      else leadingZeros (10 * numerator) denominator fuel + 1

/-- The place of the point: the datum is below `10 ^ pointPlace` and not below a tenth of it. -/
def pointPlace (interval : Interval) : Int :=
  let numerator := interval.onGrid 0 interval.centre
  let denominator := interval.gridUnit 0
  let whole := numerator / denominator
  if whole = 0 then -(leadingZeros numerator denominator 400 : Nat)
  else ((Nat.toDigits 10 whole).length : Nat)

/-- The shortest decimal of the interval; 17 digits are enough for every format here. -/
def shortest (interval : Interval) : Numeral :=
  let place := interval.pointPlace
  let found := (List.range' 1 17).findSome? fun (count : Nat) => interval.nearest? (place - count)
  match found with
  | some ⟨10, power⟩ => ⟨1, power + 1⟩
  | some numeral => numeral
  | none => ⟨interval.onGrid (place - 17) interval.centre / interval.gridUnit (place - 17), place - 17⟩

end Interval

end ShapedTensor.Decimal
