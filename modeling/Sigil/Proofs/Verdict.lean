import Sigil.Proofs.Frame

/-! The reserved cell. It starts as false and afterwards holds what the last condition was found to be: a step
records the condition that it has evaluated, also when the block has no end, and no other statement can write
the cell, since its name is not one that a statement can give to a variable. -/
namespace Sigil

inductive Action (ω : Type) where
  | step
  | register (module name : Text) (function : HostFunction ω)

namespace Store

def conditionHolding (result : Bool) : Variable := { conditionCell with data := some (.bool result) }

theorem recordedCell {store : Store} {cell : Variable} (held : store.get? conditionName = some cell) (result : Bool) :
    (store.recordCondition result).get? conditionName = some { cell with data := some (.bool result) } := by
  rw [recorded held, getPut, if_pos rfl]

end Store

namespace Machine
variable {ω : Type} {machine : Machine ω}

def act (machine : Machine ω) : Action ω → Machine ω
  | .step => machine.step.2
  | .register module name function => machine.register module name function

def actAll (machine : Machine ω) (actions : List (Action ω)) : Machine ω := actions.foldl act machine

def verdict? (machine : Machine ω) : Option Bool :=
  if machine.status = .running then
    match (machine.line? machine.counter).map Statement.parse with
    | some (.ok (.conditional _ condition)) =>
      (machine.evaluate (Condition.evaluate machine.scope.value condition)).1.toOption
    | _ => none
  else none

def verdicts (machine : Machine ω) : List (Action ω) → List Bool
  | [] => []
  | .step :: rest => machine.verdict?.toList ++ verdicts machine.step.2 rest
  | .register module name function :: rest => verdicts (machine.register module name function) rest

theorem targetUnreserved {line name : Text} {statement : Statement} (parsed : Statement.parse line = .ok statement)
    (target : statement.target? = some name) : name ≠ Store.conditionName := by
  rintro rfl
  have identifier := Statement.targetIdentifier parsed target
  rw [Store.conditionName, Statement.conditionNotIdentifier] at identifier
  exact Bool.false_ne_true identifier

theorem executeKeepsCondition (machine : Machine ω) {line : Text}
    (other : ∀ label condition, Statement.parse line ≠ .ok (.conditional label condition)) :
    (machine.execute line).2.store.get? Store.conditionName = machine.store.get? Store.conditionName := by
  cases ran : machine.execute line with
  | mk result after =>
    cases result with
    | ok =>
      obtain ⟨statement, parsed, move⟩ := executed ran
      refine move.frame fun written => ?_
      cases statement with
      | conditional label condition => exact other label condition parsed
      | _ => exact targetUnreserved parsed written rfl
    | error fault =>
      have refusal := refused ran
      generalize parsed : Statement.parse line = read at refusal other
      cases refusal with
      | malformed => rfl
      | evaluating own => rfl
      | assign refused => exact Store.assignOther refused (targetUnreserved parsed rfl)
      | openLoop refused => exact Store.openOther refused (targetUnreserved parsed rfl)
      | loopBack refused => exact Store.loopBackOther refused (targetUnreserved parsed rfl)
      | noEnd missing => exact absurd rfl (other _ _)

theorem conditionalStore (machine : Machine ω) (label condition : Text) :
    (machine.executeConditional label condition).2.store =
      match (machine.evaluate (Condition.evaluate machine.scope.value condition)).1.toOption with
      | some result => machine.store.recordCondition result
      | none => machine.store := by
  unfold executeConditional
  cases ran : machine.evaluate (Condition.evaluate machine.scope.value condition) with
  | mk result after =>
    cases result with
    | error fault =>
      obtain ⟨world, rfl⟩ := (evaluated (Scope.tameCondition _ condition) ran).1
      rfl
    | ok holds =>
      cases holds with
      | true => rfl
      | false => cases machine.endLine? label <;> rfl

theorem unjudged {line : Text} (here : machine.line? machine.counter = some line)
    (other : ∀ label condition, Statement.parse line ≠ .ok (.conditional label condition)) :
    machine.verdict? = none := by
  unfold verdict?
  split
  · split
    · rename_i label condition parsed
      rw [here] at parsed
      exact absurd (Option.some.inj parsed) (other label condition)
    · rfl
  · rfl

theorem stepJudges (machine : Machine ω) :
    machine.step.2.store.get? Store.conditionName =
      match machine.verdict? with
      | some result => (machine.store.recordCondition result).get? Store.conditionName
      | none => machine.store.get? Store.conditionName := by
  by_cases running : machine.status = .running
  · cases here : machine.line? machine.counter with
    | none => simp [verdict?, step, running, here]
    | some line =>
      obtain ⟨_, _, after⟩ := stepAfter running here
      rw [after]
      by_cases judges : ∃ label condition, Statement.parse line = .ok (.conditional label condition)
      · obtain ⟨label, condition, parsed⟩ := judges
        simp only [verdict?, running, if_true, here, Option.map_some, parsed, execute, conditionalStore]
        split <;> rfl
      · have other label condition (parsed : Statement.parse line = .ok (.conditional label condition)) : False :=
          judges ⟨label, condition, parsed⟩
        rw [unjudged here other]
        exact executeKeepsCondition machine other
  · rw [stepEnded running]
    simp [verdict?, running]

theorem actAllHolds {before : Bool}
    (held : machine.store.get? Store.conditionName = some (Store.conditionHolding before)) (actions : List (Action ω)) :
    (machine.actAll actions).store.get? Store.conditionName =
      some (Store.conditionHolding ((machine.verdicts actions).getLast?.getD before)) := by
  induction actions generalizing machine before with
  | nil => exact held
  | cons action rest ih =>
    cases action with
    | register module name function =>
      have kept : (machine.register module name function).store = machine.store := rfl
      exact ih (kept ▸ held)
    | step =>
      have judged := stepJudges machine
      cases verdict : machine.verdict? with
      | none =>
        rw [verdict] at judged
        rw [verdicts, verdict]
        exact ih (judged.trans held)
      | some result =>
        rw [verdict] at judged
        have now : machine.step.2.store.get? Store.conditionName = some (Store.conditionHolding result) :=
          judged.trans (Store.recordedCell held result)
        rw [verdicts, verdict, Option.toList_some, List.singleton_append, List.getLast?_cons]
        exact ih now

theorem loadHolds {source : Text} {settings : Settings} {loader : Loader ω} {world : ω}
    (accepted : load source settings loader world = .ok machine) :
    machine.store.get? Store.conditionName = some (Store.conditionHolding false) := by
  unfold load at accepted
  split at accepted
  · cases accepted
    rfl
  · simp at accepted

theorem readsHolding {result : Bool}
    (held : machine.store.get? Store.conditionName = some (Store.conditionHolding result)) (state : Nested ω) :
    (machine.scope.value "$?".toList).run state = (.ok (.bool result), state) := by
  have kind : Operand.ofToken "$?".toList = .ok (.stored Store.conditionName) := rfl
  have reads : machine.store.read Store.conditionName = .ok (.bool result) := by
    simp [Store.read, held, Store.conditionHolding]
  rw [Scope.valueEq, kind]
  exact congrArg (·, state) reads

theorem conditionCellTells {source : Text} {settings : Settings} {loader : Loader ω} {world : ω} {machine : Machine ω}
    (accepted : load source settings loader world = .ok machine) (actions : List (Action ω)) :
    (machine.actAll actions).store.get? Store.conditionName =
      some ⟨Store.conditionName, .boolean, [Variable.systemFlag],
        some (.bool ((machine.verdicts actions).getLast?.getD false)), Table.empty⟩ ∧
    (∀ state, ((machine.actAll actions).scope.value "$?".toList).run state =
      (.ok (.bool ((machine.verdicts actions).getLast?.getD false)), state)) ∧
    ∀ (other : Machine ω) (line : Text),
      (∀ label condition, Statement.parse line ≠ .ok (.conditional label condition)) →
      (other.execute line).2.store.get? Store.conditionName = other.store.get? Store.conditionName := by
  have held := actAllHolds (loadHolds accepted) actions
  exact ⟨held, readsHolding held, fun other _ plain => executeKeepsCondition other plain⟩

theorem conditionCellTellsOld : ∃ machine : Machine Unit,
    load "?if $a | 0\n?end $a\n?if $b | 1\n?if $c | $x\n".toList Settings.default Catalog.empty.load () = .ok machine ∧
    (machine.actAll [.step, .step, .step]).status = .failed ∧ machine.verdicts [.step, .step, .step] = [false, true] ∧
    ∀ state,
      ((machine.actAll [.step, .step, .step]).scope.value "$?".toList).run state = (.ok (.bool true), state) := by
  have accepted : load "?if $a | 0\n?end $a\n?if $b | 1\n?if $c | $x\n".toList Settings.default Catalog.empty.load () =
      .ok (ofLines ["?if $a | 0".toList, "?end $a".toList, "?if $b | 1".toList, "?if $c | $x".toList]
        Registry.initial Settings.default ()) := rfl
  have told : (ofLines ["?if $a | 0".toList, "?end $a".toList, "?if $b | 1".toList, "?if $c | $x".toList]
      Registry.initial Settings.default ()).verdicts [.step, .step, .step] = [false, true] := by
    decide +kernel
  have reads := (conditionCellTells accepted [.step, .step, .step]).2.1
  rw [told] at reads
  exact ⟨_, accepted, by decide +kernel, told, reads⟩

end Machine
end Sigil
