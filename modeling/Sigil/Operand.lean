import Sigil.Eval
import Sigil.Registry.Basic
import Sigil.Statement.Parser
import Sigil.Store
import Sigil.Text.Escape

/-!
What a token stands for. The first rule that fits decides: a boolean word, an integer, a decimal,
`$` and a variable's name, a string in quotes, a call, and otherwise the token's own text.
Calls inside a token use up one level of nesting each; the variables and the registry do not change
while a statement is evaluated.
-/
namespace Sigil

inductive Operand where
  | literal (value : Value)
  | stored (name : Text)
  | nested (text : Text)
  deriving DecidableEq, Repr

namespace Operand

def isDecimal (token : Text) : Bool :=
  token.count '.' == 1 && token.any Char.isDigit && token.all fun c => c.isDigit || c == '.'

def ofInteger (token : Text) : Except Fault Operand :=
  match Numeral.readInt64 token with
  | some n => .ok (.literal (.int n))
  | none => .error (.typeMismatch (.literalOutOfRange token))

def ofDecimal (token : Text) : Except Fault Operand :=
  match Decimal.read token with
  | some x => .ok (.literal (.decimal x))
  | none => .error (.typeMismatch (.literalMalformed token))

def ofString (inner : Text) : Except Fault Operand :=
  if inner.getLast? = some '"' then .ok (.literal (.str (Text.unescape inner.dropLast)))
  else .error (.malformed (.stringNotClosed ('"' :: inner)))

def ofTrimmed (token : Text) : Except Fault Operand :=
  match Value.readBool token with
  | some b => .ok (.literal (.bool b))
  | none =>
    if Numeral.isDigits token then ofInteger token
    else if isDecimal token then ofDecimal token
    else match token with
      | '$' :: name => .ok (.stored name)
      | '"' :: inner => ofString inner
      | '!' :: _ => .ok (.nested token)
      | _ => .ok (.literal (.str token))

def ofToken (token : Text) : Except Fault Operand := ofTrimmed token.trim

theorem ofTokenNested {token text : Text} (kind : ofToken token = .ok (.nested text)) :
    text = token.trim := by
  unfold ofToken ofTrimmed at kind
  split at kind
  · simp at kind
  · split at kind
    · unfold ofInteger at kind
      split at kind <;> simp at kind
    · split at kind
      · unfold ofDecimal at kind
        split at kind <;> simp at kind
      · split at kind
        · simp at kind
        · unfold ofString at kind
          split at kind <;> simp at kind
        · simpa using kind.symm
        · simp at kind

end Operand

theorem Operand.nestedArgumentShorter {token text arg : Text} {call : Call}
    (kind : ofToken token = .ok (.nested text)) (parsed : Statement.parseCall text = .ok call)
    (member : arg ∈ call.args) : arg.length < token.length := by
  have inside := Statement.parseCallShorter parsed member
  have whole := Text.trimLength token
  rw [ofTokenNested kind] at inside
  omega

structure Scope (ω : Type) where
  store : Store
  registry : Registry ω
  limit : Nat

structure Nested (ω : Type) where
  depth : Nat
  world : ω

def Nested.deeper {ω α : Type} (computation : Eval (Nested ω) α) : Eval (Nested ω) α := fun state =>
  let (result, after) := computation.run { state with depth := state.depth + 1 }
  (result, { after with depth := after.depth - 1 })

namespace Scope
variable {ω : Type}

def checkDepth (scope : Scope ω) : Eval (Nested ω) Unit := fun state =>
  if scope.limit ≤ state.depth then (.error (.callDepthExceeded scope.limit), state) else (.ok (), state)

/-- Calls a host function: it has to exist and to take that many arguments before any is evaluated. -/
def invoke (scope : Scope ω) (call : Call) (arguments : Eval (Nested ω) (List Value)) :
    Eval (Nested ω) Value := do
  let function ← Eval.ofExcept (scope.registry.resolve call.module call.name)
  Eval.ofExcept (function.arity.check call.module call.name call.args.length)
  let args ← arguments
  fun state =>
    match function.call args state.world with
    | (.ok value, world) => (.ok value, { state with world })
    | (.error message, world) => (.error (.hostFailure call.module call.name message), { state with world })

def value (scope : Scope ω) (token : Text) : Eval (Nested ω) Value :=
  match kind : Operand.ofToken token with
  | .error fault => .fail fault
  | .ok (.literal value) => pure value
  | .ok (.stored name) => Eval.ofExcept (scope.store.read name)
  | .ok (.nested text) => do
    scope.checkDepth
    match parsed : Statement.parseCall text with
    | .error cause => .fail (.malformed cause)
    | .ok call =>
      Nested.deeper (scope.invoke call (call.args.attach.mapM fun ⟨arg, member⟩ =>
        have : arg.length < token.length := Operand.nestedArgumentShorter kind parsed member
        scope.value arg))
termination_by token.length

def call (scope : Scope ω) (call : Call) : Eval (Nested ω) Value :=
  scope.invoke call (call.args.mapM scope.value)

def bound (scope : Scope ω) (token : Text) : Eval (Nested ω) Int64 := do
  let value ← scope.value token
  match value.toInt64? with
  | some n => pure n
  | none => .fail (.typeMismatch (.boundNotInteger value))

end Scope
end Sigil
