import Sigil.Proofs.Evaluation

/-! Two evaluations side by side. To execute a statement is to evaluate what it holds and then to conclude from
what was found, which touches only the variables and the counter. A relation between evaluations that each way
of building them keeps therefore holds between the evaluations of whole statements. -/
namespace Sigil

def Statement.Finding : Statement → Type
  | .assign _ => Value
  | .openLoop _ _ _ => Int64 × Int64
  | .conditional _ _ => Bool
  | _ => Unit

namespace Scope
variable {ω ω' : Type}

def findings (scope : Scope ω) : (statement : Statement) → Eval (Nested ω) statement.Finding
  | .call call => scope.call call >>= fun _ => pure ()
  | .assign assignment => scope.value assignment.value
  | .openLoop _ lower upper => Machine.bounds scope lower upper
  | .loopBack _ => (pure () : Eval (Nested ω) Unit)
  | .conditional _ condition => Condition.evaluate scope.value condition
  | .nothing => (pure () : Eval (Nested ω) Unit)

structure Relates (related : ∀ {α : Type}, Eval (Nested ω) α → Eval (Nested ω') α → Prop) (scope : Scope ω)
    (other : Scope ω') : Prop where
  returns : ∀ {α : Type} (a : α), related (pure a) (pure a)
  fails : ∀ {α : Type} (fault : Fault), related (.fail fault : Eval (Nested ω) α) (.fail fault)
  binds : ∀ {α β : Type} {first : Eval (Nested ω) α} {first' : Eval (Nested ω') α} {next : α → Eval (Nested ω) β}
    {next' : α → Eval (Nested ω') β}, related first first' → (∀ a, related (next a) (next' a)) →
      related (first >>= next) (first' >>= next')
  deepens : ∀ {α : Type} {inner : Eval (Nested ω) α} {inner' : Eval (Nested ω') α}, related inner inner' →
    related (Nested.deeper inner) (Nested.deeper inner')
  checks : related scope.checkDepth other.checkDepth
  invokes : ∀ (call : Call) {arguments : Eval (Nested ω) (List Value)} {arguments' : Eval (Nested ω') (List Value)},
    related arguments arguments' → related (scope.invoke call arguments) (other.invoke call arguments')
  reads : scope.store.read = other.store.read

namespace Relates
variable {related : ∀ {α : Type}, Eval (Nested ω) α → Eval (Nested ω') α → Prop} {scope : Scope ω} {other : Scope ω'}
  {α β : Type}

theorem ofExcept (relates : Relates related scope other) (result : Except Fault α) :
    related (.ofExcept result) (.ofExcept result) := by
  cases result with
  | ok a => exact relates.returns a
  | error fault => exact relates.fails fault

theorem mapM (relates : Relates related scope other) {f : α → Eval (Nested ω) β} {g : α → Eval (Nested ω') β}
    {xs : List α} (each : ∀ x ∈ xs, related (f x) (g x)) : related (xs.mapM f) (xs.mapM g) := by
  induction xs with
  | nil => exact relates.returns []
  | cons x xs ih =>
    rw [List.mapM_cons, List.mapM_cons]
    have rest := ih fun y member => each y (List.mem_cons_of_mem x member)
    exact relates.binds (each x List.mem_cons_self) fun _ => relates.binds rest fun _ => relates.returns _

theorem value (relates : Relates related scope other) (token : Text) :
    related (scope.value token) (other.value token) := by
  induction token using Operand.tokenInduction with
  | step token ih =>
    rw [valueEq, valueEq]
    split
    · exact relates.fails _
    · exact relates.returns _
    · rw [relates.reads]
      exact relates.ofExcept _
    · rename_i text kind
      refine relates.binds relates.checks fun _ => ?_
      split
      · exact relates.fails _
      · rename_i call parsed
        exact relates.deepens (relates.invokes call (relates.mapM (ih text call kind parsed)))

theorem call (relates : Relates related scope other) (call : Call) : related (scope.call call) (other.call call) :=
  relates.invokes call (relates.mapM fun arg _ => relates.value arg)

theorem bound (relates : Relates related scope other) (token : Text) :
    related (scope.bound token) (other.bound token) := by
  refine relates.binds (relates.value token) fun value => ?_
  split
  · exact relates.returns _
  · exact relates.fails _

theorem reduce (relates : Relates related scope other) (expression : Text) (value : Value) (tokens : List Text) :
    related (Condition.reduce scope.value expression value tokens)
      (Condition.reduce other.value expression value tokens) := by
  fun_induction Condition.reduce scope.value expression value tokens with
  | case1 value => exact relates.returns value
  | case2 => exact relates.fails _
  | case3 value symbol right rest unknown =>
    rw [Condition.reduce, unknown]
    exact relates.fails _
  | case4 value symbol right rest operator known ih =>
    rw [Condition.reduce, known]
    refine relates.binds (relates.value _) fun found => ?_
    exact relates.binds (relates.ofExcept _) fun result => ih result

theorem condition (relates : Relates related scope other) (expression : Text) :
    related (Condition.evaluate scope.value expression) (Condition.evaluate other.value expression) := by
  rw [Condition.evaluateReduce, Condition.evaluateReduce]
  refine relates.binds (relates.ofExcept _) fun tokens => ?_
  split
  · exact relates.fails _
  · exact relates.fails _
  · refine relates.binds (relates.value _) fun value => ?_
    exact relates.binds (relates.reduce expression value _) fun _ => relates.returns _

theorem findings (relates : Relates related scope other) (statement : Statement) :
    related (scope.findings statement) (other.findings statement) := by
  cases statement with
  | call call => exact relates.binds (relates.call call) fun _ => relates.returns _
  | assign assignment => exact relates.value _
  | openLoop name lower upper =>
    exact relates.binds (relates.bound lower) fun _ => relates.binds (relates.bound upper) fun _ => relates.returns _
  | loopBack name => exact relates.returns _
  | conditional label condition => exact relates.condition condition
  | nothing => exact relates.returns _

end Relates
end Scope

namespace Machine
variable {ω : Type}

/- What remains of a statement once its evaluation has found something: the variables and the counter afterwards. -/
def effect (lines : Array Text) (counter : Nat) (store : Store) :
    (statement : Statement) → statement.Finding → Except Fault Unit × Store × Nat
  | .call _, _ => (.ok (), store, counter)
  | .assign assignment, value =>
    let (result, store) := store.assign assignment.name assignment.type assignment.flags value
    (result, store, counter)
  | .openLoop name _ _, bounds =>
    let (result, store) := store.openLoop name bounds.1 bounds.2 (counter + 1)
    (result, store, counter)
  | .loopBack name, _ =>
    match store.loopBack name with
    | (.error fault, store) => (.error fault, store, counter)
    | (.ok none, store) => (.ok (), store, counter)
    | (.ok (some line), store) => (.ok (), store, line - 1)
  | .conditional label _, (holds : Bool) =>
    if holds then (.ok (), store.recordCondition holds, counter)
    else match endWithin lines label (lines.size - counter) counter with
      | none => (.error (.missingEnd label), store.recordCondition holds, counter)
      | some line => (.ok (), store.recordCondition holds, line)
  | .nothing, _ => (.ok (), store, counter)

def conclude (machine : Machine ω) (statement : Statement) (found : statement.Finding) :
    Except Fault Unit × Machine ω :=
  let (result, store, counter) := effect machine.lines machine.counter machine.store statement found
  (result, { machine with store, counter })

def evaluateThen {α : Type} (machine : Machine ω) (computation : Eval (Nested ω) α)
    (conclusion : Machine ω → α → Except Fault Unit × Machine ω) : Except Fault Unit × Machine ω :=
  match machine.evaluate computation with
  | (.error fault, after) => (.error fault, after)
  | (.ok found, after) => conclusion after found

theorem executeEq (machine : Machine ω) (line : Text) : machine.execute line =
    match Statement.parse line with
    | .error cause => (.error (.malformed cause), machine)
    | .ok statement =>
      machine.evaluateThen (machine.scope.findings statement) fun after => after.conclude statement := by
  unfold execute
  cases Statement.parse line with
  | error cause => rfl
  | ok statement =>
    cases statement with
    | call call =>
      change machine.executeCall call =
        machine.evaluateThen (machine.scope.call call >>= fun _ => pure ()) fun after => after.conclude (.call call)
      simp only [executeCall, evaluateThen, evaluate, Eval.runBind]
      cases (machine.scope.call call).run ⟨machine.depth, machine.world⟩ with
      | mk result after => cases result <;> rfl
    | assign assignment =>
      change machine.executeAssignment assignment =
        machine.evaluateThen (machine.scope.value assignment.value) fun after => after.conclude (.assign assignment)
      simp only [executeAssignment, evaluateThen, evaluate]
      cases (machine.scope.value assignment.value).run ⟨machine.depth, machine.world⟩ with
      | mk result after => cases result <;> rfl
    | openLoop name lower upper =>
      change machine.executeOpen name lower upper =
        machine.evaluateThen (bounds machine.scope lower upper) fun after => after.conclude (.openLoop name lower upper)
      simp only [executeOpen, evaluateThen, evaluate]
      cases (bounds machine.scope lower upper).run ⟨machine.depth, machine.world⟩ with
      | mk result after => cases result <;> rfl
    | loopBack name =>
      change machine.executeBack name = machine.conclude (.loopBack name) ()
      simp only [executeBack, conclude, effect]
      cases machine.store.loopBack name with
      | mk result store => rcases result with fault | (_ | line) <;> rfl
    | conditional label condition =>
      change machine.executeConditional label condition =
        machine.evaluateThen (Condition.evaluate machine.scope.value condition)
          fun after => after.conclude (.conditional label condition)
      simp only [executeConditional, evaluateThen, evaluate]
      cases (Condition.evaluate machine.scope.value condition).run ⟨machine.depth, machine.world⟩ with
      | mk result after =>
        rcases result with fault | (_ | _)
        · rfl
        · simp only [conclude, effect, endLine?, Bool.false_eq_true, if_false]
          cases endWithin machine.lines label (machine.lines.size - machine.counter) machine.counter <;> rfl
        · rfl
    | nothing => rfl

end Machine
end Sigil
