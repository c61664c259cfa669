import Sigil.Decimal.Shortest
import Sigil.Numeral

/-!
The text of a decimal value. A whole number is written with all its digits and `.0`; any other
number positionally with the fewest places that read back. There is no exponent.
Reading also takes an exponent, either sign, and the words for infinity and not-a-number in any
letter case.
-/
namespace Sigil.Decimal

def withPoint (places count : Nat) : Text :=
  let digits := Numeral.writeNat count
  let padded := List.replicate (places + 1 - digits.length) '0' ++ digits
  padded.take (padded.length - places) ++ '.' :: padded.drop (padded.length - places)

def dropZeros (text : Text) : Text := (text.reverse.dropWhile (· == '0')).reverse

def writeMagnitude (mantissa : Nat) (exponent : Int) : Text :=
  if isWhole mantissa exponent then Numeral.writeNat (wholePart mantissa exponent) ++ ".0".toList
  else
    let (places, count) := shortest mantissa (-exponent).toNat
    dropZeros (withPoint places count)

def signed (negative : Bool) (text : Text) : Text := if negative then '-' :: text else text

def write (x : Float) : Text :=
  match Binary.ofFloat x with
  | .notANumber => "NaN".toList
  | .infinite negative => signed negative "inf".toList
  | .finite negative mantissa exponent => signed negative (writeMagnitude mantissa exponent)

def infinity : Float := Float.ofBits 0x7FF0000000000000

def notANumber : Float := Float.ofBits 0x7FF8000000000000

/-- No point halfway between two neighbours has more significant digits. -/
def digitLimit : Nat := 800

/-- The number nearest to `digits * 10 ^ exponent`. Digits past the limit matter only by not all being
zero, and far out of range no power has to be computed. -/
def nearest (digits : Text) (exponent : Int) : Float :=
  let significant := digits.dropWhile (· == '0')
  let magnitude := exponent + significant.length
  if significant.isEmpty || magnitude < -400 then 0
  else if magnitude > 400 then infinity
  else
    let excess := significant.drop digitLimit
    let kept := significant.take digitLimit ++ if excess.all (· == '0') then [] else ['1']
    let scale := magnitude - kept.length
    Float.ofScientific (Nat.ofDigitChars 10 kept 0) (scale < 0) scale.natAbs

/-- An exponent that has come to this takes up no further digits. -/
def exponentLimit : Nat := 65536

def exponentValue (digits : Text) : Nat :=
  digits.foldl (fun value c => if value < exponentLimit then Nat.ofDigitChars 10 [c] value else value) 0

def readExponent (text : Text) : Option Int :=
  let (negative, digits) := match text with
    | '-' :: rest => (true, rest)
    | '+' :: rest => (false, rest)
    | rest => (false, rest)
  if Numeral.isDigits digits then
    some (if negative then -(exponentValue digits : Int) else exponentValue digits)
  else none

def readScale : Text → Option Int
  | [] => some 0
  | c :: rest => if c = 'e' ∨ c = 'E' then readExponent rest else none

def readMagnitude (text : Text) : Option Float :=
  let whole := text.takeWhile Char.isDigit
  let afterWhole := text.dropWhile Char.isDigit
  let (fraction, afterFraction) := match afterWhole with
    | '.' :: rest => (rest.takeWhile Char.isDigit, rest.dropWhile Char.isDigit)
    | _ => ([], afterWhole)
  if (whole ++ fraction).isEmpty then none
  else (readScale afterFraction).map fun exponent => nearest (whole ++ fraction) (exponent - fraction.length)

def readUnsigned (text : Text) : Option Float :=
  let lower := text.map Char.toLower
  if lower = "inf".toList ∨ lower = "infinity".toList then some infinity
  else if lower = "nan".toList then some notANumber
  else readMagnitude text

def read (text : Text) : Option Float :=
  match text with
  | '-' :: rest => (readUnsigned rest).map Float.neg
  | '+' :: rest => readUnsigned rest
  | rest => readUnsigned rest

end Sigil.Decimal
