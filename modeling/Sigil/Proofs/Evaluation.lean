import Sigil.Machine.Step
import Sigil.Proofs.Condition

/-! What the evaluation of a token, a call or a condition can do. It gives back the depth of nesting,
meets only faults of its own, and sees the variables through their values alone. How many arguments a
function admits, and the fault with which it refuses another number, is said first. -/
namespace Sigil

namespace Arity
variable {arity : Arity} {module name : Text} {received : Nat} {fault : Fault}

def Admits : Arity → Nat → Prop
  | fixed count, received => received = count
  | variadic minimum, received => minimum ≤ received

inductive Refuses (module name : Text) (received : Nat) : Arity → Fault → Prop where
  | other {count} (different : received ≠ count) :
      Refuses module name received (fixed count) (.arityMismatch module name count received)
  | few {minimum} (below : received < minimum) :
      Refuses module name received (variadic minimum) (.tooFewArguments module name minimum received)

theorem checkPasses : arity.check module name received = .ok () ↔ arity.Admits received := by
  cases arity <;> simp [check, Admits, eq_comm]

theorem checkFails : arity.check module name received = .error fault ↔ arity.Refuses module name received fault := by
  constructor
  · intro failed
    cases arity with
    | fixed count =>
      by_cases same : count = received <;> simp [check, same] at failed
      cases failed
      exact .other (Ne.symm same)
    | variadic minimum =>
      by_cases enough : minimum ≤ received <;> simp [check, enough] at failed
      cases failed
      exact .few (Nat.lt_of_not_le enough)
  · intro refuses
    cases refuses with
    | other different => exact if_neg (Ne.symm different)
    | few below => exact if_neg (Nat.not_le.mpr below)

end Arity

/- Storing, looping, searching for the end of a block and including a module have faults of their own.
A variable that has no value can be met only where the store holds one. -/
def Fault.Evaluating (store : Store) : Fault → Prop
  | .unresolvedValue name => ∃ cell, store.get? name = some cell ∧ cell.data = none
  | .constantRedefinition _ | .notALoop _ | .missingEnd _ | .moduleNotFound _ => False
  | _ => True

namespace Eval
variable {ω α β : Type} {allowed : Fault → Prop}

structure Tame (allowed : Fault → Prop) (computation : Eval (Nested ω) α) : Prop where
  depth : ∀ state, (computation.run state).2.depth = state.depth
  faults : ∀ {state fault after}, computation.run state = (.error fault, after) → allowed fault

theorem tamePure (a : α) : Tame allowed (pure a : Eval (Nested ω) α) :=
  ⟨fun _ => rfl, fun h => by simp at h⟩

theorem tameFail {fault : Fault} (own : allowed fault) : Tame allowed (fail fault : Eval (Nested ω) α) := by
  refine ⟨fun _ => rfl, fun h => ?_⟩
  simp only [runFail, Prod.mk.injEq, Except.error.injEq] at h
  exact h.1 ▸ own

theorem tameOfExcept {result : Except Fault α} (own : ∀ fault, result = .error fault → allowed fault) :
    Tame allowed (ofExcept result : Eval (Nested ω) α) := by
  refine ⟨fun _ => rfl, fun h => ?_⟩
  simp only [runOfExcept, Prod.mk.injEq] at h
  exact own _ h.1

theorem tameOfReading {result : Except SyntaxFault α} (own : ∀ cause, allowed (.malformed cause)) :
    Tame allowed (ofReading result : Eval (Nested ω) α) := by
  refine tameOfExcept fun fault h => ?_
  cases result with
  | ok a => simp at h
  | error cause =>
    simp only [mapErrorError, Except.error.injEq] at h
    exact h ▸ own cause

theorem tameBind {first : Eval (Nested ω) α} {next : α → Eval (Nested ω) β}
    (head : Tame allowed first) (tail : ∀ a, Tame allowed (next a)) : Tame allowed (first >>= next) := by
  constructor
  · intro state
    have before := head.depth state
    rw [runBind]
    cases h : first.run state with
    | mk result after =>
      rw [h] at before
      cases result with
      | error fault => exact before
      | ok a => exact ((tail a).depth after).trans before
  · intro state fault after h
    rw [runBind] at h
    cases ran : first.run state with
    | mk result middle =>
      rw [ran] at h
      cases result with
      | error found =>
        simp only [Prod.mk.injEq, Except.error.injEq] at h
        exact h.1 ▸ head.faults ran
      | ok a => exact (tail a).faults h

theorem tameMapM {f : α → Eval (Nested ω) β} {xs : List α} (each : ∀ x ∈ xs, Tame allowed (f x)) :
    Tame allowed (xs.mapM f) := by
  induction xs with
  | nil => exact tamePure []
  | cons x xs ih =>
    rw [List.mapM_cons]
    have rest := ih fun y member => each y (List.mem_cons_of_mem x member)
    exact tameBind (each x List.mem_cons_self) fun _ => tameBind rest fun _ => tamePure _

theorem tameDeeper {computation : Eval (Nested ω) α} (inner : Tame allowed computation) :
    Tame allowed (Nested.deeper computation) := by
  constructor
  · intro state
    have kept := inner.depth { state with depth := state.depth + 1 }
    simp only [run, Nested.deeper] at kept ⊢
    omega
  · intro state fault after h
    simp only [run, Nested.deeper, Prod.mk.injEq] at h
    exact inner.faults (Prod.ext h.1 rfl)

theorem mapMCongr {f g : α → Eval ω β} {xs : List α} (same : ∀ x ∈ xs, f x = g x) : xs.mapM f = xs.mapM g := by
  induction xs with
  | nil => rfl
  | cons x xs ih =>
    rw [List.mapM_cons, List.mapM_cons, same x List.mem_cons_self,
      ih fun y member => same y (List.mem_cons_of_mem x member)]

end Eval

namespace Operand

theorem tokenInduction {motive : Text → Prop}
    (step : ∀ token, (∀ text call, ofToken token = .ok (.nested text) → Statement.parseCall text = .ok call →
      ∀ arg ∈ call.args, motive arg) → motive token) (token : Text) : motive token := by
  refine step token fun text call kind parsed arg member => ?_
  have := nestedArgumentShorter kind parsed member
  exact tokenInduction step arg
termination_by token.length

theorem ofTrimmedSigned {c : Char} (sign : c.isDigit = false ∧ c ≠ '.' ∧ c ≠ 't' ∧ c ≠ 'f') (rest : Text) :
    ofTrimmed (c :: rest) = match c :: rest with
      | '$' :: name => .ok (.stored name)
      | '"' :: inner => ofString inner
      | '!' :: _ => .ok (.nested (c :: rest))
      | _ => .ok (.literal (.str (c :: rest))) := by
  obtain ⟨digit, point, yes, no⟩ := sign
  have word : Value.readBool (c :: rest) = none := by simp [Value.readBool, yes, no]
  have digits : Numeral.isDigits (c :: rest) = false := by simp [Numeral.isDigits, digit]
  have decimal : isDecimal (c :: rest) = false := by simp [isDecimal, digit, point]
  simp only [ofTrimmed, word, digits, decimal, Bool.false_eq_true, if_false]
  rfl

theorem ofTokenFault {token : Text} {fault : Fault} (h : ofToken token = .error fault) :
    (∃ cause, fault = .malformed cause) ∨ ∃ cause, fault = .typeMismatch cause := by
  unfold ofToken ofTrimmed at h
  split at h
  · simp at h
  · split at h
    · unfold ofInteger at h
      split at h <;> simp at h
      exact .inr ⟨_, h.symm⟩
    · split at h
      · unfold ofDecimal at h
        split at h <;> simp at h
        exact .inr ⟨_, h.symm⟩
      · split at h
        · simp at h
        · unfold ofString at h
          split at h <;> simp at h
          exact .inl ⟨_, h.symm⟩
        · simp at h
        · simp at h

end Operand

namespace Scope
variable {ω : Type}

theorem valueEq (scope : Scope ω) (token : Text) : scope.value token =
    match Operand.ofToken token with
    | .error fault => .fail fault
    | .ok (.literal value) => pure value
    | .ok (.stored name) => Eval.ofExcept (scope.store.read name)
    | .ok (.nested text) => scope.checkDepth >>= fun _ =>
      match Statement.parseCall text with
      | .error cause => .fail (.malformed cause)
      | .ok call => Nested.deeper (scope.call call) := by
  rw [value]
  split <;> rename_i kind <;> simp only [kind]
  congr 1
  funext _
  split <;> rename_i parsed <;> simp only [parsed]
  rw [call, List.mapM_subtype fun _ _ => rfl, List.unattach_attach]

theorem readFault {store : Store} {name : Text} {fault : Fault} (h : store.read name = .error fault) :
    fault.Evaluating store := by
  unfold Store.read at h
  split at h
  · cases h; trivial
  · rename_i cell found
    split at h
    · rename_i empty
      cases h
      exact ⟨cell, found, empty⟩
    · simp at h

theorem resolveFault {registry : Registry ω} {module name : Text} {fault : Fault} {store : Store}
    (h : registry.resolve module name = .error fault) : fault.Evaluating store := by
  unfold Registry.resolve at h
  split at h
  · cases h; trivial
  · split at h
    · cases h; trivial
    · simp at h

theorem arityFault {arity : Arity} {module name : Text} {received : Nat} {fault : Fault} {store : Store}
    (h : arity.check module name received = .error fault) : fault.Evaluating store := by
  cases Arity.checkFails.mp h <;> trivial

theorem tameInvoke (scope : Scope ω) (call : Call) {arguments : Eval (Nested ω) (List Value)}
    (inner : arguments.Tame (Fault.Evaluating scope.store)) :
    (scope.invoke call arguments).Tame (Fault.Evaluating scope.store) := by
  refine Eval.tameBind (Eval.tameOfExcept fun _ => resolveFault) fun function => ?_
  refine Eval.tameBind (Eval.tameOfExcept fun _ => arityFault) fun _ => ?_
  refine Eval.tameBind inner fun args => ?_
  constructor
  · intro state
    simp only [Eval.run]
    split <;> rfl
  · intro state fault after h
    simp only [Eval.run] at h
    split at h
    · simp at h
    · cases h; trivial

theorem tameValue (scope : Scope ω) (token : Text) :
    (scope.value token).Tame (Fault.Evaluating scope.store) := by
  induction token using Operand.tokenInduction with
  | step token ih =>
    rw [valueEq]
    split
    · rename_i fault read
      refine Eval.tameFail ?_
      rcases Operand.ofTokenFault read with ⟨_, rfl⟩ | ⟨_, rfl⟩ <;> trivial
    · exact Eval.tamePure _
    · exact Eval.tameOfExcept fun _ => readFault
    · rename_i text kind
      refine Eval.tameBind ⟨fun state => ?_, fun {state fault after} h => ?_⟩ fun _ => ?_
      · simp only [Eval.run, checkDepth]
        split <;> rfl
      · simp only [Eval.run, checkDepth] at h
        split at h <;> simp at h
        exact h.1 ▸ trivial
      · split
        · exact Eval.tameFail trivial
        · rename_i call parsed
          exact Eval.tameDeeper (tameInvoke scope call (Eval.tameMapM (ih text call kind parsed)))

theorem tameCall (scope : Scope ω) (call : Call) : (scope.call call).Tame (Fault.Evaluating scope.store) :=
  tameInvoke scope call (Eval.tameMapM fun arg _ => tameValue scope arg)

theorem tameBound (scope : Scope ω) (token : Text) :
    (scope.bound token).Tame (Fault.Evaluating scope.store) := by
  refine Eval.tameBind (tameValue scope token) fun value => ?_
  split
  · exact Eval.tamePure _
  · exact Eval.tameFail trivial

theorem tameBounds (scope : Scope ω) (lower upper : Text) :
    (Machine.bounds scope lower upper).Tame (Fault.Evaluating scope.store) :=
  Eval.tameBind (tameBound scope lower) fun _ => Eval.tameBind (tameBound scope upper) fun _ => Eval.tamePure _

theorem tameReduce (scope : Scope ω) (expression : Text) (value : Value) (tokens : List Text) :
    (Condition.reduce scope.value expression value tokens).Tame (Fault.Evaluating scope.store) := by
  fun_induction Condition.reduce scope.value expression value tokens with
  | case1 value => exact Eval.tamePure value
  | case2 => exact Eval.tameFail trivial
  | case3 value symbol right rest unknown => exact Eval.tameFail trivial
  | case4 value symbol right rest operator known ih =>
    refine Eval.tameBind (tameValue scope _) fun other => ?_
    have own (fault : Fault) (refused : operator.apply value other = .error fault) : fault.Evaluating scope.store :=
      (Operator.applyFault refused).2 ▸ trivial
    exact Eval.tameBind (Eval.tameOfExcept own) fun result => ih result

theorem tameCondition (scope : Scope ω) (expression : Text) :
    (Condition.evaluate scope.value expression).Tame (Fault.Evaluating scope.store) := by
  rw [Condition.evaluateReduce]
  refine Eval.tameBind (Eval.tameOfReading fun _ => trivial) fun tokens => ?_
  split
  · exact Eval.tameFail trivial
  · exact Eval.tameFail trivial
  · refine Eval.tameBind (tameValue scope _) fun value => ?_
    exact Eval.tameBind (tameReduce scope expression value _) fun _ => Eval.tamePure _

structure Alike (scope other : Scope ω) : Prop where
  reads : scope.store.read = other.store.read
  registry : scope.registry = other.registry
  limit : scope.limit = other.limit

variable {scope other : Scope ω}

theorem alikeInvoke (alike : scope.Alike other) (call : Call) (arguments : Eval (Nested ω) (List Value)) :
    scope.invoke call arguments = other.invoke call arguments := by
  simp only [invoke, alike.registry]

theorem alikeValue (alike : scope.Alike other) : scope.value = other.value := by
  funext token
  induction token using Operand.tokenInduction with
  | step token ih =>
    rw [valueEq, valueEq]
    split
    · rfl
    · rfl
    · rw [alike.reads]
    · rename_i text kind
      have room : scope.checkDepth = other.checkDepth := by
        funext state
        simp only [checkDepth, alike.limit]
      rw [room]
      congr 1
      funext _
      split
      · rfl
      · rename_i call parsed
        rw [Scope.call, Scope.call, Eval.mapMCongr (ih text call kind parsed), alikeInvoke alike]

theorem alikeCall (alike : scope.Alike other) (call : Call) : scope.call call = other.call call := by
  rw [Scope.call, Scope.call, alikeValue alike, alikeInvoke alike]

theorem alikeBounds (alike : scope.Alike other) (lower upper : Text) :
    Machine.bounds scope lower upper = Machine.bounds other lower upper := by
  simp only [Machine.bounds, bound, alikeValue alike]

end Scope
end Sigil
