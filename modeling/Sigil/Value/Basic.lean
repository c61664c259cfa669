import Sigil.Decimal.Format
import Sigil.ValueType

/-!
Values of the language, the type of each, its text and its truth.
-/
namespace Sigil

inductive Value where
  | int (n : Int64)
  | decimal (x : Float)
  | bool (b : Bool)
  | str (text : Text)
  deriving DecidableEq, Repr

namespace Value

def type : Value → ValueType
  | int _ => .integer
  | decimal _ => .decimal
  | bool _ => .boolean
  | str _ => .string

def text : Value → Text
  | int n => Numeral.writeInt64 n
  | decimal x => Decimal.write x
  | bool true => "true".toList
  | bool false => "false".toList
  | str text => text

def truth : Value → Bool
  | int n => n != 0
  | decimal x => x != 0
  | bool b => b
  | str text => !text.isEmpty

end Value
end Sigil
