import Sigil.Condition

/-! What each operator is written as and what it asks of two values, and a condition without its queue: behind the
value that is found stand words only, so the reduction is a recursion over them. -/
namespace Sigil

namespace Operator
variable {operator : Operator} {left right : Value}

def all : List Operator := [or, and, not, contains, equal, less, greater]

def symbol : Operator → Text
  | or => ['+']
  | and => ['*']
  | not => ['~']
  | contains => ['^']
  | equal => ['=']
  | less => ['<']
  | greater => ['>']

def named? (symbol : Text) : Option Operator := all.find? fun operator => operator.symbol = symbol

def Applies (left right : Value) : Operator → Prop
  | less | greater => (left.order right).isSome = true
  | _ => True

def Holds (left right : Value) : Operator → Prop
  | or => left.truth = true ∨ right.truth = true
  | and => left.truth = true ∧ right.truth = true
  | not => left.truth = false
  | contains => left.text <:+: right.text
  | equal => left.looselyEquals right = true
  | less => left.order right = some .lt
  | greater => left.order right = some .gt

instance decidableApplies (left right : Value) : (operator : Operator) → Decidable (operator.Applies left right)
  | or | and | not | contains | equal => .isTrue trivial
  | less | greater => inferInstanceAs (Decidable (_ = _))

instance decidableHolds (left right : Value) : (operator : Operator) → Decidable (operator.Holds left right)
  | or => inferInstanceAs (Decidable (_ ∨ _))
  | and => inferInstanceAs (Decidable (_ ∧ _))
  | not | equal | less | greater => inferInstanceAs (Decidable (_ = _))
  | contains => decidable_of_iff _ Text.occursIff

theorem namedIff {text : Text} : named? text = some operator ↔ operator.symbol = text := by
  constructor
  · intro found
    simpa using List.find?_some found
  · rintro rfl
    cases operator <;> rfl

theorem ofSymbolIff {text : Text} : ofSymbol? text = some operator ↔ operator.symbol = text := by
  constructor
  · intro found
    unfold ofSymbol? at found
    split at found <;> cases found <;> rfl
  · rintro rfl
    cases operator <;> rfl

theorem ofSymbolNamed (text : Text) : ofSymbol? text = named? text :=
  Option.ext fun _ => ofSymbolIff.trans namedIff.symm

theorem answered {result : Bool} (applies : operator.Applies left right)
    (tells : result = true ↔ operator.Holds left right) : (.ok result : Except Fault Bool) =
      if operator.Applies left right then .ok (decide (operator.Holds left right))
      else .error (.typeMismatch (.notComparable left.type right.type)) := by
  rw [if_pos applies]
  exact congrArg Except.ok (Bool.eq_iff_iff.mpr (tells.trans decide_eq_true_iff.symm))

theorem orderedTest {test : Ordering → Bool} {order : Ordering} (tests : ∀ other, test other = decide (other = order)) :
    ordered left right test = if (left.order right).isSome = true then .ok (decide (left.order right = some order))
      else .error (.typeMismatch (.notComparable left.type right.type)) := by
  unfold ordered
  cases left.order right with
  | none => rfl
  | some found => simp [tests]

theorem applyEq : operator.apply left right =
    if operator.Applies left right then .ok (decide (operator.Holds left right))
    else .error (.typeMismatch (.notComparable left.type right.type)) := by
  cases operator with
  | or => exact answered trivial (Bool.or_eq_true _ _).to_iff
  | and => exact answered trivial (Bool.and_eq_true _ _).to_iff
  | not => exact answered trivial (Bool.not_eq_true' _).to_iff
  | contains => exact answered trivial Text.occursIff
  | equal => exact answered trivial Iff.rfl
  | less => exact orderedTest fun other => by cases other <;> rfl
  | greater => exact orderedTest fun other => by cases other <;> rfl

theorem applyFault {fault : Fault} (refused : operator.apply left right = .error fault) :
    ¬operator.Applies left right ∧ fault = .typeMismatch (.notComparable left.type right.type) := by
  rw [applyEq] at refused
  split at refused
  · simp at refused
  · rename_i apart
    exact ⟨apart, (Except.error.inj refused).symm⟩

end Operator

namespace Condition
variable {ω : Type}

def reduce (operand : Text → Eval ω Value) (expression : Text) : Value → List Text → Eval ω Value
  | value, [] => pure value
  | _, [_] => .fail (.insufficientOperands expression.trim)
  | value, symbol :: right :: rest => do
    match Operator.ofSymbol? symbol with
    | none => .fail (.unknownOperator symbol)
    | some operator =>
      let other ← operand (Token.unwrapGroup right)
      let result ← Eval.ofExcept (operator.apply value other)
      reduce operand expression (.bool result) rest

variable (operand : Text → Eval ω Value) (lack : Fault)

theorem drainNothing : drain operand lack [] = .fail lack := by
  unfold drain
  rfl

theorem drainLast (last : Item) :
    drain operand lack [last] = resolve operand last >>= fun value => pure value.truth := by
  unfold drain
  rfl

theorem drainShort (left symbol : Item) : drain operand lack [left, symbol] = .fail lack := by
  unfold drain
  rfl

theorem drainRound (left symbol right : Item) (rest : List Item) :
    drain operand lack (left :: symbol :: right :: rest) = resolve operand left >>= fun value =>
      Eval.ofExcept (operatorOf symbol) >>= fun operator => resolve operand right >>= fun other =>
        Eval.ofExcept (operator.apply value other) >>= fun result =>
          drain operand lack (.value (.bool result) :: rest) := by
  have long : 1 < (left :: symbol :: right :: rest).length := by simp
  have enough : ¬(left :: symbol :: right :: rest).length < 3 := by simp
  rw [drain, if_pos long, if_neg enough]

theorem drainReduce (expression : Text) (value : Value) (words : List Text) :
    drain operand (.insufficientOperands expression.trim) (.value value :: words.map .token) =
      reduce operand expression value words >>= fun found => pure found.truth := by
  fun_induction reduce operand expression value words with
  | case1 value => rw [List.map_nil, drainLast, resolve]
  | case2 value symbol =>
    rw [List.map_cons, List.map_nil, drainShort]
    rfl
  | case3 value symbol right rest unknown =>
    rw [List.map_cons, List.map_cons, drainRound, operatorOf, unknown]
    rfl
  | case4 value symbol right rest operator known ih =>
    rw [List.map_cons, List.map_cons, drainRound, operatorOf, known]
    simp only [resolve, bind_assoc, ← ih]
    rfl

theorem evaluateReduce (expression : Text) : evaluate operand expression = do
    match ← Eval.ofReading (Token.operands expression) with
    | [] | [_, _] => .fail (.insufficientOperands expression.trim)
    | first :: rest =>
      let value ← operand (Token.unwrapGroup first)
      return (← reduce operand expression value rest).truth := by
  unfold evaluate
  congr 1
  funext words
  match words with
  | [] => exact drainNothing operand _
  | [first] =>
    rw [List.map_cons, List.map_nil, drainLast]
    rfl
  | [first, symbol] => exact drainShort operand _ _ _
  | first :: symbol :: right :: rest =>
    have token : drain operand (.insufficientOperands expression.trim)
        ((first :: symbol :: right :: rest).map .token) = operand (Token.unwrapGroup first) >>= fun value =>
          drain operand (.insufficientOperands expression.trim)
            (.value value :: (symbol :: right :: rest).map .token) := by
      simp only [List.map_cons, drainRound, resolve, pure_bind]
    simp only [token, drainReduce]

theorem evaluateWords {condition first : Text} {rest : List Text}
    (read : Token.operands condition = .ok (first :: rest)) (enough : rest.length ≠ 1) :
    evaluate operand condition = operand (Token.unwrapGroup first) >>= fun value =>
      reduce operand condition value rest >>= fun found => pure found.truth := by
  rw [evaluateReduce, read]
  match rest with
  | [] => rfl
  | [_] => exact absurd rfl enough
  | _ :: _ :: _ => rfl

end Condition
end Sigil
