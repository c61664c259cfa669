import Sigil.ValueType

/-!
What one line of a program says. Arguments, values, bounds and conditions are kept as written,
without their outer parentheses; they are evaluated when the line is executed.
-/
namespace Sigil

structure Call where
  module : Text
  name : Text
  args : List Text
  deriving DecidableEq, Repr

def Call.defaultModule : Text := "program".toList

def Call.qualifiedName (call : Call) : Text := call.module ++ '.' :: call.name

structure Assignment where
  name : Text
  type : ValueType
  flags : List Text
  value : Text
  deriving DecidableEq, Repr

inductive Statement where
  | call (call : Call)
  | assign (assignment : Assignment)
  | openLoop (name lower upper : Text)
  | loopBack (name : Text)
  | conditional (label condition : Text)
  | nothing
  deriving DecidableEq, Repr

end Sigil
