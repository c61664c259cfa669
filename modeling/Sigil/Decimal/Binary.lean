import Sigil.Text.Basic

/-!
A double-precision number taken apart: not a number, an infinity, or a whole number times a power
of two with a sign.
-/
namespace Sigil.Decimal

inductive Binary where
  | notANumber
  | infinite (negative : Bool)
  | finite (negative : Bool) (mantissa : Nat) (exponent : Int)
  deriving DecidableEq, Repr

namespace Binary

def hiddenBit : Nat := 0x10000000000000

def ofBits (bits : UInt64) : Binary :=
  let negative := bits.toNat >>> 63 == 1
  let field : Nat := (bits.toNat >>> 52) % 0x800
  let fraction : Nat := bits.toNat % hiddenBit
  if field = 0x7FF then if fraction = 0 then infinite negative else notANumber
  else if field = 0 then finite negative fraction (-1074)
  else finite negative (hiddenBit + fraction) ((field : Int) - 1075)

def ofFloat (x : Float) : Binary := ofBits x.toBits

end Binary

def wholePart (mantissa : Nat) (exponent : Int) : Nat :=
  if 0 ≤ exponent then mantissa <<< exponent.toNat else mantissa >>> (-exponent).toNat

def isWhole (mantissa : Nat) (exponent : Int) : Bool :=
  0 ≤ exponent || wholePart mantissa exponent <<< (-exponent).toNat == mantissa

def truncate (x : Float) : Option Int64 :=
  match Binary.ofFloat x with
  | .finite negative mantissa exponent =>
    let whole : Int := wholePart mantissa exponent
    let signed := if negative then -whole else whole
    some (Int64.ofInt (max Int64.minValue.toInt (min Int64.maxValue.toInt signed)))
  | _ => none

end Sigil.Decimal
