import Sigil.Eval
import Sigil.Text.Replace
import Sigil.Token.Split
import Sigil.Value.Compare

/-!
Conditions: operands with an operator between each two. As long as more than one item is left, the first
three are taken off and what they reduce to is put back in front, so that no operator binds tighter than
another.
-/
namespace Sigil

inductive Operator where
  | or
  | and
  /-- Negates the left operand; the right one is evaluated and ignored. -/
  | not
  | contains
  | equal
  | less
  | greater
  deriving DecidableEq, Repr

namespace Operator

def ofSymbol? : Text → Option Operator
  | ['+'] => some or
  | ['*'] => some and
  | ['~'] => some not
  | ['^'] => some contains
  | ['='] => some equal
  | ['<'] => some less
  | ['>'] => some greater
  | _ => none

def ordered (left right : Value) (test : Ordering → Bool) : Except Fault Bool :=
  match left.order right with
  | some ordering => .ok (test ordering)
  | none => .error (.typeMismatch (.notComparable left.type right.type))

/-- `contains` asks whether the text of the left operand occurs in that of the right one. -/
def apply (operator : Operator) (left right : Value) : Except Fault Bool :=
  match operator with
  | or => .ok (left.truth || right.truth)
  | and => .ok (left.truth && right.truth)
  | not => .ok !left.truth
  | contains => .ok (Text.occurs left.text right.text)
  | equal => .ok (left.looselyEquals right)
  | less => ordered left right Ordering.isLT
  | greater => ordered left right Ordering.isGT

end Operator

inductive Item where
  | token (text : Text)
  | value (value : Value)
  deriving DecidableEq, Repr

namespace Condition
variable {ω : Type}

def resolve (operand : Text → Eval ω Value) : Item → Eval ω Value
  | .token text => operand (Token.unwrapGroup text)
  | .value value => pure value

def operatorOf : Item → Except Fault Operator
  | .token symbol =>
    match Operator.ofSymbol? symbol with
    | some operator => .ok operator
    | none => .error (.unknownOperator symbol)
  | .value value => .error (.unknownOperator value.text)

def drain (operand : Text → Eval ω Value) (lack : Fault) (queue : List Item) : Eval ω Bool :=
  if 1 < queue.length then
    if queue.length < 3 then .fail lack
    else match queue with
      | left :: symbol :: right :: rest => do
        let value ← resolve operand left
        let operator ← Eval.ofExcept (operatorOf symbol)
        let other ← resolve operand right
        let result ← Eval.ofExcept (operator.apply value other)
        drain operand lack (.value (.bool result) :: rest)
      | _ => .fail lack
  else match queue with
    | last :: _ => do return (← resolve operand last).truth
    | [] => .fail lack
termination_by queue.length

def evaluate (operand : Text → Eval ω Value) (expression : Text) : Eval ω Bool := do
  let words ← Eval.ofReading (Token.operands expression)
  drain operand (.insufficientOperands expression.trim) (words.map .token)

end Condition
end Sigil
