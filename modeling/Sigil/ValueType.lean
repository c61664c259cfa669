import Sigil.Text.Basic

/-!
The type that a variable is pinned to when it is first assigned.
-/
namespace Sigil

inductive ValueType where
  | string
  | integer
  | decimal
  | boolean
  deriving DecidableEq, Repr

namespace ValueType

def name : ValueType → Text
  | string => "string".toList
  | integer => "integer".toList
  | decimal => "decimal".toList
  | boolean => "boolean".toList

def all : List ValueType := [string, integer, decimal, boolean]

def ofName? (text : Text) : Option ValueType := all.find? fun type => type.name == text

theorem ofNameIff {text : Text} {type : ValueType} : ofName? text = some type ↔ text = type.name := by
  constructor
  · intro found
    have same := List.find?_some found
    exact (eq_of_beq same).symm
  · rintro rfl
    cases type <;> decide

end ValueType
end Sigil
