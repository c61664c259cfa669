import Sigil.Text.Order
import Sigil.Value.Basic

/-!
Equality and order of values. Integers compare as integers and strings by code points; any other
two numbers compare as decimals, with a boolean counting as zero or one. A string and a number are
unequal and have no order, and neither has not-a-number.
-/
namespace Sigil.Value

def number : Value → Option Float
  | int n => some (Float.ofInt n.toInt)
  | decimal x => some x
  | bool b => some (if b then 1 else 0)
  | str _ => none

def looselyEquals : Value → Value → Bool
  | int a, int b => a == b
  | bool a, bool b => a == b
  | str a, str b => a == b
  | left, right =>
    match left.number, right.number with
    | some a, some b => a == b
    | _, _ => false

def compareDecimals (a b : Float) : Option Ordering :=
  if a < b then some .lt else if b < a then some .gt else if a == b then some .eq else none

def order : Value → Value → Option Ordering
  | int a, int b => some (compare a.toInt b.toInt)
  | str a, str b => some (Text.compare a b)
  | left, right =>
    match left.number, right.number with
    | some a, some b => compareDecimals a b
    | _, _ => none

end Sigil.Value
