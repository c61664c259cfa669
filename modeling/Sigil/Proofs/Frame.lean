import Sigil.Proofs.Constants
import Sigil.Proofs.Runs
import Sigil.Proofs.Statement

/-! What a step leaves alone. A step that succeeds changes no variable but the one that its statement names. A
step that fails stops the machine for good where it stands, with the variables it had: only a condition whose
block has no end has been recorded, and only a name whose first value does not fit has been taken. -/
namespace Sigil

def Statement.written? : Statement → Option Text
  | .conditional _ _ => some Store.conditionName
  | statement => statement.target?

namespace Store
variable {store after : Store} {name other : Text} {fault : Fault}

theorem takenKeeps {cell : Variable} (held : store.get? other = some cell) (name : Text) (type : ValueType) :
    (store.put name (store.cell name type)).get? other = some cell := by
  rw [getPut]
  split
  · rename_i same
    rw [cellOf (same ▸ held)]
  · exact held

theorem assignAbsent (absent : store.get? name = none) {type : ValueType} {value : Value}
    (misfit : value.coerce type = none) (flags : List Text) :
    store.assign name type flags value =
      (.error (.typeMismatch (.notStorable value type name)), store.put name (Variable.fresh name type)) := by
  simp [assign, cell, absent, Variable.fresh, misfit]

theorem assignAbsentRefused (absent : store.get? name = none) {type : ValueType} {flags : List Text} {value : Value}
    (h : store.assign name type flags value = (.error fault, after)) : value.coerce type = none := by
  cases misfit : value.coerce type with
  | none => rfl
  | some stored => simp [assign, cell, absent, Variable.fresh, misfit] at h

theorem openPresent {lower upper : Int64} {resume : Nat}
    (h : store.openLoop name lower upper resume = (.error fault, after)) : store.get? name ≠ none := by
  intro absent
  simp [openLoop, cell, absent, Variable.fresh, Variable.hasFlag] at h

end Store

namespace Machine
variable {ω : Type} {machine after : Machine ω} {name : Text}

theorem Move.frame {statement : Statement} (move : Move machine statement after)
    (other : statement.written? ≠ some name) : after.store.get? name = machine.store.get? name := by
  cases move with
  | nothing => rfl
  | call ran => rfl
  | assign ran stored => exact Store.assignOther stored fun same => other (congrArg some same)
  | openLoop ran opened => exact Store.openOther opened fun same => other (congrArg some same)
  | leave done => exact Store.loopBackOther done fun same => other (congrArg some same)
  | back again => exact Store.loopBackOther again fun same => other (congrArg some same)
  | enter ran => exact Store.recordOther true fun same => other (congrArg some same)
  | skip ran found => exact Store.recordOther false fun same => other (congrArg some same)

theorem Refusal.kept {parsed : Except SyntaxFault Statement} {fault : Fault} {cell : Variable}
    (refusal : Refusal machine parsed fault after) (held : machine.store.get? name = some cell)
    (unrecorded : name ≠ Store.conditionName ∨ ∀ label, fault ≠ .missingEnd label) :
    after.store.get? name = some cell := by
  cases refusal with
  | malformed => exact held
  | evaluating own => exact held
  | assign refused =>
    rw [(Store.assignRefused refused).1]
    exact Store.takenKeeps held _ _
  | openLoop refused =>
    rw [(Store.openRefused refused).1]
    exact Store.takenKeeps held _ _
  | loopBack refused =>
    rw [(Store.loopBackRefused refused).1]
    exact held
  | @noEnd label condition world missing =>
    rcases unrecorded with different | other
    · rw [← held]
      exact Store.recordOther false (Ne.symm different)
    · exact absurd rfl (other label)

theorem Refusal.unended {parsed : Except SyntaxFault Statement} {label : Text}
    (refusal : Refusal machine parsed (.missingEnd label) after) :
    after.store = machine.store.recordCondition false := by
  cases refusal with
  | evaluating own => exact own.elim
  | assign refused => simpa using (Store.assignRefused refused).2
  | openLoop refused => simpa using (Store.openRefused refused).2
  | loopBack refused => simpa using (Store.loopBackRefused refused).2
  | noEnd missing => rfl

theorem Refusal.adds {parsed : Except SyntaxFault Statement} {fault : Fault} {cell : Variable}
    (refusal : Refusal machine parsed fault after) (absent : machine.store.get? name = none)
    (held : after.store.get? name = some cell) :
    ∃ assignment, parsed = .ok (.assign assignment) ∧ assignment.name = name := by
  cases refusal with
  | malformed => simp [absent] at held
  | evaluating own => simp [absent] at held
  | @assign assignment value _ _ _ refused =>
    refine ⟨assignment, rfl, Decidable.byContradiction fun different => ?_⟩
    rw [Store.assignOther refused different, absent] at held
    simp at held
  | openLoop refused =>
    rw [Store.openOther refused fun same => Store.openPresent refused (same ▸ absent), absent] at held
    simp at held
  | loopBack refused =>
    rw [(Store.loopBackRefused refused).1, absent] at held
    simp at held
  | noEnd missing =>
    unfold Store.recordCondition at held
    split at held
    · simp [absent] at held
    · rename_i found
      have different : Store.conditionName ≠ name := fun same => by simp [same, absent] at found
      rw [Store.getPut, if_neg different, absent] at held
      simp at held

def Misfits (machine : Machine ω) (name : Text) (type : ValueType) : Prop :=
  ∃ line assignment value middle, machine.line? machine.counter = some line ∧
    Statement.parse line = .ok (.assign assignment) ∧ assignment.name = name ∧ assignment.type = type ∧
    machine.evaluate (machine.scope.value assignment.value) = (.ok value, middle) ∧ value.coerce type = none

theorem assignmentAdds {assignment : Assignment} {fault : Fault} {cell : Variable}
    (absent : machine.store.get? assignment.name = none)
    (h : machine.executeAssignment assignment = (.error fault, after))
    (held : after.store.get? assignment.name = some cell) :
    ∃ value middle, machine.evaluate (machine.scope.value assignment.value) = (.ok value, middle) ∧
      value.coerce assignment.type = none ∧ cell = Variable.fresh assignment.name assignment.type := by
  unfold executeAssignment at h
  split at h <;> rename_i ran
  · cases h
    obtain ⟨world, rfl⟩ := (evaluated (Scope.tameValue _ assignment.value) ran).1
    simp [absent] at held
  · rename_i value middle
    cases stored : machine.store.assign assignment.name assignment.type assignment.flags value with
    | mk result store =>
      rw [stored] at h
      cases h
      have misfit := Store.assignAbsentRefused absent stored
      rw [Store.assignAbsent absent misfit] at stored
      cases stored
      rw [Store.getPut, if_pos rfl] at held
      exact ⟨value, middle, ran, misfit, (Option.some.inj held).symm⟩

theorem addedIff {line : Text} {fault : Fault} (here : machine.line? machine.counter = some line)
    (h : machine.execute line = (.error fault, after)) (absent : machine.store.get? name = none) (cell : Variable) :
    after.store.get? name = some cell ↔ ∃ type, machine.Misfits name type ∧ cell = Variable.fresh name type := by
  constructor
  · intro held
    obtain ⟨assignment, parsed, rfl⟩ := (refused h).adds absent held
    simp only [execute, parsed] at h
    obtain ⟨value, middle, ran, misfit, rfl⟩ := assignmentAdds absent h held
    exact ⟨assignment.type, ⟨line, assignment, value, middle, here, parsed, rfl, rfl, ran, misfit⟩, rfl⟩
  · intro given
    obtain ⟨type, ⟨text, assignment, value, middle, there, parsed, rfl, rfl, ran, misfit⟩, rfl⟩ := given
    cases Option.some.inj (here.symm.trans there)
    simp only [execute, parsed, executeAssignment, ran, Store.assignAbsent absent misfit, Prod.mk.injEq] at h
    rw [← h.2]
    simp

structure Stops (machine : Machine ω) (report : Report) (after : Machine ω) : Prop where
  status : after.status = .failed
  counter : after.counter = machine.counter
  lines : after.lines = machine.lines
  registry : after.registry = machine.registry
  depth : after.depth = machine.depth
  line : report.line = machine.counter
  sourceLine : machine.line? machine.counter = some report.sourceLine
  kept : ∀ name cell, machine.store.get? name = some cell →
    (name ≠ Store.conditionName ∨ ∀ label, report.fault ≠ .missingEnd label) → after.store.get? name = some cell
  unended : ∀ label, report.fault = .missingEnd label → ∃ cell,
    machine.store.get? Store.conditionName = some cell ∧
    after.store.get? Store.conditionName = some { cell with data := some (.bool false) }
  added : ∀ name, machine.store.get? name = none → ∀ cell,
    after.store.get? name = some cell ↔ ∃ type, machine.Misfits name type ∧ cell = Variable.fresh name type
  stays : ∀ steps, (next^[steps] after).step = (.ok .failed, after)

theorem failedStays (failed : machine.status = .failed) (steps : Nat) :
    (next^[steps] machine).step = (.ok .failed, machine) := by
  have still : machine.step = (.ok .failed, machine) := by
    rw [stepEnded (by simp [failed]), failed]
  have fixed : next^[steps] machine = machine := Function.iterate_fixed (by rw [next, still]) steps
  rw [fixed, still]

theorem stepStops (coherent : machine.store.Coherent) (running : machine.status = .running) {report : Report}
    (failed : machine.step.1 = .error report) : machine.Stops report machine.step.2 := by
  cases here : machine.line? machine.counter with
  | none => simp [step, running, here] at failed
  | some line =>
    cases h : machine.execute line with
    | mk result after =>
      cases result with
      | ok => simp [stepOk running here h] at failed
      | error fault =>
        have step := stepError running here h
        rw [step] at failed ⊢
        cases failed
        have refusal := refused h
        obtain ⟨lines, registry, _, counter, depth⟩ := refusal.keeps
        refine ⟨rfl, counter, lines, registry, depth, rfl, here, ?_, ?_, ?_, failedStays rfl⟩
        · intro name cell held
          exact refusal.kept held
        · rintro label rfl
          obtain ⟨cell, held, _⟩ := coherent.condition
          refine ⟨cell, held, ?_⟩
          simp [refusal.unended, Store.recorded held]
        · intro name absent
          have added := addedIff here h absent
          exact added

theorem stepCoherent (coherent : machine.store.Coherent) : machine.step.2.store.Coherent := by
  unfold step
  split
  · split
    · exact coherent
    · split <;> rename_i h
      · obtain ⟨statement, _, move⟩ := executed h
        exact move.coherent coherent
      · exact (refused h).coherent coherent
  · exact coherent

theorem Reachable.coherent (reachable : machine.Reachable) : machine.store.Coherent := by
  induction reachable with
  | load accepted => exact (loadSound accepted).coherent
  | step before ih => exact stepCoherent ih
  | register before module name function ih => exact ih

theorem stepWrites (running : machine.status = .running) {status : Status} (went : machine.step.1 = .ok status)
    (changed : machine.step.2.store.get? name ≠ machine.store.get? name) :
    ∃ line statement, machine.line? machine.counter = some line ∧ Statement.parse line = .ok statement ∧
      statement.written? = some name := by
  cases here : machine.line? machine.counter with
  | none => simp [step, running, here] at changed
  | some line =>
    rcases stepCases running here with ⟨statement, after, parsed, move, step⟩ | ⟨fault, after, _, step⟩
    · refine ⟨line, statement, rfl, parsed, Decidable.byContradiction fun other => changed ?_⟩
      rw [step]
      exact move.frame other
    · simp [step] at went

theorem stepFrame {machine : Machine ω} (reachable : machine.Reachable) (running : machine.status = .running) :
    (∀ status, machine.step.1 = .ok status → ∀ name, machine.step.2.store.get? name ≠ machine.store.get? name →
      ∃ line statement, machine.line? machine.counter = some line ∧ Statement.parse line = .ok statement ∧
        statement.written? = some name) ∧
    ∀ report, machine.step.1 = .error report → machine.Stops report machine.step.2 :=
  ⟨fun _ went _ changed => stepWrites running went changed,
    fun _ failed => stepStops reachable.coherent running failed⟩

theorem stepFrameMisfit : ∃ first : Machine Unit, first.Reachable ∧ first.status = .running ∧
    first.step.1 = .ok .running ∧ first.step.2.store.get? ['x'] ≠ first.store.get? ['x'] ∧
    (∃ line statement, first.line? first.counter = some line ∧ Statement.parse line = .ok statement ∧
      statement.written? = some ['x']) ∧
    ∃ report, first.step.2.step.1 = .error report ∧ first.step.2.Stops report first.step.2.step.2 ∧
      first.step.2.step.2.store.get? ['y'] = some (Variable.fresh ['y'] .integer) := by
  have accepted : load "$x integer[] = (1)\n$y integer[const] = (one)".toList Settings.default Catalog.empty.load () =
      .ok (ofLines ["$x integer[] = (1)".toList, "$y integer[const] = (one)".toList] Registry.initial
        Settings.default ()) := rfl
  have reachable := Reachable.load accepted
  generalize loaded : ofLines _ _ _ _ = first at reachable
  have running : first.status = .running := by
    rw [← loaded]
    decide +kernel
  have went : first.step.1 = .ok .running := by
    rw [← loaded]
    decide +kernel
  have changed : first.step.2.store.get? ['x'] ≠ first.store.get? ['x'] := by
    rw [← loaded]
    decide +kernel
  have still : first.step.2.status = .running := by
    rw [← loaded]
    decide +kernel
  have stopped : first.step.2.step.1.toOption = none := by
    rw [← loaded]
    decide +kernel
  cases refused : first.step.2.step.1 with
  | ok status => simp [refused, Except.toOption] at stopped
  | error report =>
    refine ⟨first, reachable, running, went, changed, (stepFrame reachable running).1 _ went _ changed, report, refused,
      (stepFrame reachable.step still).2 _ refused, ?_⟩
    rw [← loaded]
    decide +kernel

end Machine
end Sigil
