import Sigil.SyntaxFault
import Sigil.Value.Basic

/-!
What can go wrong while a program is expanded or executed. A fault is its cause; the kind shown to
the user, the message and the advice are functions of it.
-/
namespace Sigil

inductive Mismatch where
  | notComparable (left right : ValueType)
  | notStorable (value : Value) (type : ValueType) (name : Text)
  | redeclared (name : Text) (declared given : ValueType)
  | counterNotInteger (name : Text) (type : ValueType)
  | boundNotInteger (value : Value)
  | literalOutOfRange (token : Text)
  | literalMalformed (token : Text)
  deriving DecidableEq, Repr

inductive Fault where
  | malformed (cause : SyntaxFault)
  | unknownVariable (name : Text)
  | unresolvedValue (name : Text)
  | unknownModule (module : Text)
  | unknownFunction (module name : Text)
  | arityMismatch (module name : Text) (expected received : Nat)
  | tooFewArguments (module name : Text) (minimum received : Nat)
  | constantRedefinition (name : Text)
  | notALoop (name : Text)
  | typeMismatch (cause : Mismatch)
  | insufficientOperands (expression : Text)
  | unknownOperator (symbol : Text)
  | missingEnd (label : Text)
  | moduleNotFound (module : Text)
  | callDepthExceeded (limit : Nat)
  | hostFailure (module name message : Text)
  deriving DecidableEq, Repr

inductive Kind where
  | syntaxError
  | nameError
  | typeError
  | assignmentError
  | moduleNotFound
  | endOfFile
  | endOfLine
  | recursionError
  | runtimeError
  deriving DecidableEq, Repr

def Kind.label : Kind → String
  | syntaxError => "SyntaxError"
  | nameError => "NameError"
  | typeError => "TypeError"
  | assignmentError => "AssignmentError"
  | moduleNotFound => "ModuleNotFound"
  | endOfFile => "EOF"
  | endOfLine => "EOL"
  | recursionError => "RecursionError"
  | runtimeError => "RuntimeError"

def inQuotes (text : Text) : String := "\"" ++ String.ofList text ++ "\""

def Mismatch.message : Mismatch → String
  | notComparable left right =>
    "cannot compare " ++ String.ofList left.name ++ " with " ++ String.ofList right.name
  | notStorable value type name =>
    "cannot store " ++ String.ofList value.type.name ++ " " ++ inQuotes value.text ++ " in "
      ++ String.ofList type.name ++ " variable " ++ inQuotes name
  | redeclared name declared given =>
    "variable " ++ inQuotes name ++ " is declared as " ++ String.ofList declared.name ++ ", not "
      ++ String.ofList given.name
  | counterNotInteger name type =>
    "loop counter " ++ inQuotes name ++ " must be integer, found " ++ String.ofList type.name
  | boundNotInteger value =>
    "loop bound must be an integer, found " ++ String.ofList value.type.name ++ " " ++ inQuotes value.text
  | literalOutOfRange token => "integer literal " ++ SyntaxFault.inTicks token ++ " is out of range"
  | literalMalformed token => "malformed decimal literal " ++ SyntaxFault.inTicks token

namespace Fault

def kind : Fault → Kind
  | malformed cause => if cause.atLineEnd then .endOfLine else .syntaxError
  | insufficientOperands _ | unknownOperator _ => .syntaxError
  | unknownVariable _ | unresolvedValue _ | unknownModule _ | unknownFunction _ _ => .nameError
  | arityMismatch _ _ _ _ | tooFewArguments _ _ _ _ | notALoop _ | typeMismatch _ => .typeError
  | constantRedefinition _ => .assignmentError
  | missingEnd _ => .endOfFile
  | moduleNotFound _ => .moduleNotFound
  | callDepthExceeded _ => .recursionError
  | hostFailure _ _ _ => .runtimeError

def qualified (module name : Text) : String := String.ofList module ++ "." ++ String.ofList name

def count (n : Nat) : String := String.ofList (Numeral.writeNat n)

def message : Fault → String
  | malformed cause => cause.message
  | unknownVariable name => "There is no variable named " ++ inQuotes name
  | unresolvedValue name => "Variable " ++ inQuotes name ++ " was read before it was given a value"
  | unknownModule module => "No module " ++ String.ofList module ++ " was found."
  | unknownFunction module name => "No function called " ++ qualified module name ++ " was found."
  | arityMismatch module name expected received =>
    qualified module name ++ ": expected " ++ count expected ++ " parameters, got " ++ count received
  | tooFewArguments module name minimum received =>
    qualified module name ++ ": expected at least " ++ count minimum ++ " parameters, got " ++ count received
  | constantRedefinition name => "Constant " ++ inQuotes name ++ " cannot be redefined"
  | notALoop name => "Variable " ++ inQuotes name ++ " is not a loop variable"
  | typeMismatch cause => "Type mismatch: " ++ cause.message
  | insufficientOperands expression => "Insufficient logical arguments in " ++ SyntaxFault.inTicks expression
  | unknownOperator symbol => "Unknown logical operator " ++ SyntaxFault.inTicks symbol
  | missingEnd label => "End of file (EOF) while looking for `?end $" ++ String.ofList label ++ "`"
  | moduleNotFound module => "No such module " ++ inQuotes module ++ " was found"
  | callDepthExceeded limit => "Function calls nested deeper than " ++ count limit ++ " levels"
  | hostFailure module name message => qualified module name ++ " failed: " ++ String.ofList message

def help : Fault → Option String
  | malformed cause => cause.help
  | notALoop name => some ("open the loop with `@n $" ++ String.ofList name ++ " lower upper` first")
  | unknownModule module => some ("add `+include " ++ String.ofList module ++ "` at the top of the program")
  | insufficientOperands _ => some "every operator takes two operands, e.g. `(a) ~ (0)` for negation"
  | _ => none

end Fault
end Sigil
