import Sigil.Text.Basic

/-!
Why a line, or a part of one, is not well formed.
A fault keeps the offending text; its wording and its advice are functions of the cause.
-/
namespace Sigil

inductive SyntaxFault where
  | argumentNotOpened (found : Char)
  | argumentNotClosed
  | argumentNotSeparated (found : Char)
  | unbalanced (text : Text)
  | valueNotClosed
  | valueFollowed (rest : Text)
  | unknownStatement (line : Text)
  | callCutShort
  | callMalformed (text : Text)
  | assignmentMalformed (line : Text)
  | unknownType (type line : Text)
  | boundsMalformed (line : Text)
  | loopMalformed (line : Text)
  | conditionalMalformed (line : Text)
  | includeMalformed (line : Text)
  | replaceMalformed (line : Text)
  | unknownDirective (keyword : Text)
  | stringNotClosed (token : Text)
  deriving DecidableEq, Repr

namespace SyntaxFault

def atLineEnd : SyntaxFault → Bool
  | argumentNotClosed | valueNotClosed | callCutShort => true
  | _ => false

def inTicks (text : Text) : String := "`" ++ String.ofList text ++ "`"

def message : SyntaxFault → String
  | argumentNotOpened found => "Expected `(` to open an argument, found " ++ inTicks [found]
  | argumentNotClosed | callCutShort => "End of line (EOL) when scanning function call"
  | argumentNotSeparated found => "Expected `,` after argument, found " ++ inTicks [found]
  | unbalanced text => "Unbalanced parentheses or quotes in " ++ inTicks text
  | valueNotClosed => "End of line (EOL) when scanning assignment value"
  | valueFollowed rest => "Unexpected " ++ inTicks rest ++ " after assignment value"
  | unknownStatement line => "Unrecognised statement " ++ inTicks line
  | callMalformed text => "Could not parse function call " ++ inTicks text
  | assignmentMalformed line => "Could not parse variable assignment " ++ inTicks line
  | unknownType type line => "Unknown type " ++ inTicks type ++ " in " ++ inTicks line
  | boundsMalformed line => "Could not parse numeric loop " ++ inTicks line
  | loopMalformed line => "Could not parse loop statement " ++ inTicks line
  | conditionalMalformed line => "Could not parse conditional " ++ inTicks line
  | includeMalformed line | replaceMalformed line => "Could not parse directive " ++ inTicks line
  | unknownDirective keyword => "Unknown directive " ++ inTicks ('+' :: keyword)
  | stringNotClosed token => "Unterminated string literal " ++ inTicks token

def help : SyntaxFault → Option String
  | argumentNotOpened _ => some "arguments are written as `(value),`"
  | valueNotClosed => some "close the value's parentheses and quotes"
  | unknownStatement _ => some "statements start with `!`, `$`, `@`, `?`, `+` or `#`"
  | callCutShort | callMalformed _ => some "a call is written `!module name: (arg),`"
  | assignmentMalformed _ => some "an assignment is written `$name type[flag/flag] = (value)`"
  | unknownType _ _ => some "known types are string, integer, decimal, boolean"
  | boundsMalformed _ => some "a numeric loop is written `@n $name lower upper`"
  | loopMalformed _ =>
    some "loops are written `@n $name lower upper` and closed with `@b $name`"
  | conditionalMalformed _ =>
    some "a conditional is written `?if $name | <expr>` and closed with `?end $name`"
  | includeMalformed _ =>
    some "write `+include <module>`; module names use letters, digits and `_`"
  | replaceMalformed _ => some "write `+replace <pattern> <replacement>`"
  | unknownDirective _ => some "directives are `+include` and `+replace`"
  | _ => none

end SyntaxFault

theorem mapOk {ε α β : Type} {f : α → β} {result : Except ε α} {b : β} (h : result.map f = .ok b) :
    ∃ a, result = .ok a ∧ f a = b := by
  cases result with
  | error fault => simp [Except.map] at h
  | ok a => exact ⟨a, rfl, by simpa [Except.map] using h⟩

@[simp] theorem mapErrorOk {ε δ α : Type} (f : ε → δ) (a : α) : (Except.ok a).mapError f = .ok a := rfl

@[simp] theorem mapErrorError {ε δ α : Type} (f : ε → δ) (fault : ε) :
    (Except.error fault : Except ε α).mapError f = .error (f fault) := rfl

instance decidableOk {ε α : Type} [DecidableEq α] (result : Except ε α) (a : α) : Decidable (result = .ok a) :=
  match result with
  | .ok b => decidable_of_iff (b = a) (by simp)
  | .error _ => isFalse (by simp)

end Sigil
