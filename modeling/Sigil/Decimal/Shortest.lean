import Sigil.Decimal.Binary

/-!
The fewest decimal places that identify a binary fraction.
The reals that round to `mantissa * 2 ^ -scale` form an interval around it; its ends belong to it
when the mantissa is even. With each number of places the two decimals next to the value are
tried; the first number of places with a hit wins, and of two hits the nearer one, or the greater
one when both are equally near. All comparisons are between whole numbers, over the common
denominator `2 ^ (scale + 2)`.
-/
namespace Sigil.Decimal

/-- The rounding interval of a number, in quarters of its last binary place. -/
structure Interval where
  low : Nat
  value : Nat
  high : Nat
  closed : Bool
  deriving DecidableEq, Repr

/-- The number below a power of two is only half a place away, except at the least exponent. -/
def Interval.around (mantissa : Nat) (least : Bool) : Interval where
  low := if mantissa = Binary.hiddenBit ∧ !least then 4 * mantissa - 1 else 4 * mantissa - 2
  value := 4 * mantissa
  high := 4 * mantissa + 2
  closed := mantissa % 2 == 0

def Interval.contains (interval : Interval) (unit candidate : Nat) : Bool :=
  if interval.closed then interval.low * unit ≤ candidate && candidate ≤ interval.high * unit
  else interval.low * unit < candidate && candidate < interval.high * unit

def candidate? (interval : Interval) (scale places : Nat) : Option Nat :=
  let unit := Nat.pow 10 places
  let denominator := 1 <<< (scale + 2)
  let below := interval.value * unit / denominator
  let gap := interval.value * unit % denominator
  let belowHits := interval.contains unit (below * denominator)
  let aboveHits := interval.contains unit ((below + 1) * denominator)
  if aboveHits && (!belowHits || denominator ≤ 2 * gap) then some (below + 1)
  else if belowHits then some below
  else none

def shortest (mantissa scale : Nat) : Nat × Nat :=
  let interval := Interval.around mantissa (scale == 1074)
  let tried := (List.range' 1 (scale + 2)).findSome? fun places =>
    (candidate? interval scale places).map fun digits => (places, digits)
  tried.getD (scale, mantissa * Nat.pow 5 scale)

end Sigil.Decimal
