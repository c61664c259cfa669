import Sigil.Value.Basic

/-!
Reading a value as one of a declared type. Anything has a text; decimals lose their fraction as
integers; booleans are integers but not decimals; a string is read, without blanks around it, as
the literal that it spells.
-/
namespace Sigil.Value

def toInt64? : Value → Option Int64
  | int n => some n
  | decimal x => Decimal.truncate x
  | bool b => some (if b then 1 else 0)
  | str text => Numeral.readInt64 text.trim

def toDecimal? : Value → Option Float
  | int n => some (Float.ofInt n.toInt)
  | decimal x => some x
  | bool _ => none
  | str text => Decimal.read text.trim

def readBool (text : Text) : Option Bool :=
  if text = "true".toList then some true
  else if text = "false".toList then some false
  else none

def toBool? : Value → Option Bool
  | str text => readBool text.trim
  | value => some value.truth

def coerce (value : Value) : ValueType → Option Value
  | .string => some (str value.text)
  | .integer => value.toInt64?.map int
  | .decimal => value.toDecimal?.map decimal
  | .boolean => value.toBool?.map bool

theorem coerceType {value stored : Value} {type : ValueType} (h : value.coerce type = some stored) :
    stored.type = type := by
  cases type with
  | string => cases h; rfl
  | integer =>
    obtain ⟨_, _, rfl⟩ := Option.map_eq_some_iff.mp h
    rfl
  | decimal =>
    obtain ⟨_, _, rfl⟩ := Option.map_eq_some_iff.mp h
    rfl
  | boolean =>
    obtain ⟨_, _, rfl⟩ := Option.map_eq_some_iff.mp h
    rfl

end Sigil.Value
