import Sigil.Proofs.Evaluation
import Sigil.Proofs.Excerpt

/-! Which tokens of a statement are evaluated, and in which states. Whatever stands in front of a token has succeeded
by then, and the calls around it are open. Each call that is met inside others has a mark of its own in the line. -/
namespace Sigil

variable {ω α β : Type}

namespace Eval

inductive Comes (f : α → Eval ω β) : List α → ω → α → ω → Prop where
  | head {x : α} {xs : List α} {state : ω} : Comes f (x :: xs) state x state
  | tail {x y : α} {xs : List α} {b : β} {state middle reached : ω} (ran : (f x).run state = (.ok b, middle))
      (later : Comes f xs middle y reached) : Comes f (x :: xs) state y reached

theorem Comes.member {f : α → Eval ω β} {xs : List α} {x : α} {state reached : ω} (comes : Comes f xs state x reached) :
    x ∈ xs := by
  induction comes with
  | head => exact List.mem_cons_self
  | tail ran later ih => exact List.mem_cons_of_mem _ ih

theorem Comes.depth {allowed : Fault → Prop} {f : α → Eval (Nested ω) β} (tame : ∀ x, Tame allowed (f x)) {xs : List α}
    {x : α} {state reached : Nested ω} (comes : Comes f xs state x reached) : reached.depth = state.depth := by
  induction comes with
  | head => rfl
  | @tail x y xs b state middle reached ran later ih =>
    have kept := (tame x).depth state
    rw [ran] at kept
    exact ih.trans kept

end Eval

namespace Condition

inductive Comes (operand : Text → Eval ω Value) : Value → List Text → ω → Text → ω → Prop where
  | next {value : Value} {symbol right : Text} {rest : List Text} {operator : Operator} {state : ω}
      (known : Operator.ofSymbol? symbol = some operator) :
      Comes operand value (symbol :: right :: rest) state (Token.unwrapGroup right) state
  | later {value other : Value} {symbol right token : Text} {rest : List Text} {operator : Operator} {result : Bool}
      {state middle reached : ω} (known : Operator.ofSymbol? symbol = some operator)
      (ran : (operand (Token.unwrapGroup right)).run state = (.ok other, middle))
      (applied : operator.apply value other = .ok result)
      (later : Comes operand (.bool result) rest middle token reached) :
      Comes operand value (symbol :: right :: rest) state token reached

theorem Comes.word {operand : Text → Eval ω Value} {value : Value} {words : List Text} {state reached : ω}
    {token : Text} (comes : Comes operand value words state token reached) :
    ∃ word ∈ words, token = Token.unwrapGroup word := by
  induction comes with
  | @next value symbol right rest operator state known => exact ⟨right, by simp, rfl⟩
  | later known ran applied later ih =>
    obtain ⟨word, member, same⟩ := ih
    exact ⟨word, by simp [member], same⟩

theorem Comes.depth {allowed : Fault → Prop} {operand : Text → Eval (Nested ω) Value}
    (tame : ∀ token, (operand token).Tame allowed) {value : Value} {words : List Text} {state reached : Nested ω}
    {token : Text} (comes : Comes operand value words state token reached) : reached.depth = state.depth := by
  induction comes with
  | next known => rfl
  | @later value other symbol right token rest operator result state middle reached known ran applied later ih =>
    have kept := (tame (Token.unwrapGroup right)).depth state
    rw [ran] at kept
    exact ih.trans kept

end Condition

namespace Scope

structure Reaches (scope : Scope ω) (call : Call) (state : Nested ω) (arg : Text) (reached : Nested ω) : Prop where
  callable : ∃ function, scope.registry.resolve call.module call.name = .ok function ∧
    function.arity.Admits call.args.length
  comes : Eval.Comes scope.value call.args state arg reached

/- The evaluation of a token reaches a call inside so many others, all of them open by then. -/
inductive Meets (scope : Scope ω) : Text → Nested ω → Nat → Prop where
  | here {token rest : Text} {state : Nested ω} (marked : token.trim = '!' :: rest) : Meets scope token state 0
  | inside {token rest arg : Text} {call : Call} {state reached : Nested ω} {opened : Nat}
      (marked : token.trim = '!' :: rest) (parsed : Statement.parseCall token.trim = .ok call)
      (reaches : scope.Reaches call { state with depth := state.depth + 1 } arg reached)
      (meets : Meets scope arg reached opened) : Meets scope token state (opened + 1)

inductive Evaluates (scope : Scope ω) (state : Nested ω) : Statement → Text → Nested ω → Prop where
  | argument {call : Call} {arg : Text} {reached : Nested ω} (reaches : scope.Reaches call state arg reached) :
      Evaluates scope state (.call call) arg reached
  | value (assignment : Assignment) : Evaluates scope state (.assign assignment) assignment.value state
  | lower (name lower upper : Text) : Evaluates scope state (.openLoop name lower upper) lower state
  | upper {lower : Text} {low : Int64} {reached : Nested ω} (name upper : Text)
      (ran : (scope.bound lower).run state = (.ok low, reached)) :
      Evaluates scope state (.openLoop name lower upper) upper reached
  | first {condition first : Text} {rest : List Text} (label : Text)
      (read : Token.operands condition = .ok (first :: rest)) (enough : rest.length ≠ 1) :
      Evaluates scope state (.conditional label condition) (Token.unwrapGroup first) state
  | right {condition first token : Text} {rest : List Text} {value : Value} {middle reached : Nested ω} (label : Text)
      (read : Token.operands condition = .ok (first :: rest)) (enough : rest.length ≠ 1)
      (ran : (scope.value (Token.unwrapGroup first)).run state = (.ok value, middle))
      (comes : Condition.Comes scope.value value rest middle token reached) :
      Evaluates scope state (.conditional label condition) token reached

variable {scope : Scope ω}

theorem Meets.marks {token : Text} {state : Nested ω} {opened : Nat} (meets : scope.Meets token state opened) :
    opened < token.count '!' := by
  induction meets with
  | @here token rest state marked =>
    have trimmed := (Text.trimSublist token).count_le '!'
    rw [marked, List.count_cons_self] at trimmed
    omega
  | @inside token rest arg call state reached opened marked parsed reaches meets ih =>
    have inside := (Statement.parseCallSublist parsed reaches.comes.member).count_le '!'
    have trimmed := (Text.trimSublist token).count_le '!'
    rw [List.count_cons_self] at inside
    omega

theorem Evaluates.holds {state reached : Nested ω} {statement : Statement} {token : Text}
    (evaluates : scope.Evaluates state statement token reached) : statement.Holds token := by
  cases evaluates with
  | argument reaches => exact .argument reaches.comes.member
  | value assignment => exact .value assignment
  | lower name lower upper => exact .lower name token upper
  | upper name upper ran => exact .upper name _ token
  | first label read enough => exact .operand label read List.mem_cons_self
  | right label read enough ran comes =>
    obtain ⟨word, member, rfl⟩ := comes.word
    exact .operand label read (List.mem_cons_of_mem _ member)

theorem Evaluates.depth {state reached : Nested ω} {statement : Statement} {token : Text}
    (evaluates : scope.Evaluates state statement token reached) : reached.depth = state.depth := by
  cases evaluates with
  | argument reaches => exact reaches.comes.depth scope.tameValue
  | value assignment => rfl
  | lower name lower upper => rfl
  | @upper lower low _ name upper ran =>
    have kept := (scope.tameBound lower).depth state
    rwa [ran] at kept
  | first label read enough => rfl
  | @right condition first _ rest value middle _ label read enough ran comes =>
    have kept := (scope.tameValue (Token.unwrapGroup first)).depth state
    rw [ran] at kept
    exact (comes.depth scope.tameValue).trans kept

end Scope
end Sigil
