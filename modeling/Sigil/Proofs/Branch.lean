import Sigil.Proofs.Limit
import Sigil.Proofs.Reduction
import Sigil.Proofs.Source

/-! The opening of a block. Its condition is recorded in the reserved cell and nowhere else, and the host is called
for the operands of the condition only. If the condition holds the block is entered; if not, the machine goes on
behind the first line further down that ends the label, whatever stands in between, and fails if there is none. -/
namespace Sigil

variable {ω : Type}

theorem Nested.notingInjective {state other : Nested ω} {calls more : List HostCall}
    (same : state.noting calls = other.noting more) : state = other ∧ calls = more := by
  cases state
  cases other
  simp only [noting, Nested.mk.injEq, Journal.mk.injEq] at same
  obtain ⟨rfl, rfl, rfl⟩ := same
  exact ⟨rfl, rfl⟩

theorem Condition.Asks.converts {scope : Scope ω} {state : Nested ω} {earlier : List HostCall} {asked : List Text}
    {stop : Option Fault} {after : Nested (Journal ω)}
    (asks : Asks scope.journaled.value (state.noting earlier) asked stop after) :
    ∃ result made world, scope.Converts state asked result made world ∧ (stop = none → ∃ values, result = .ok values) ∧
      after = Nested.noting ⟨state.depth, world⟩ (earlier ++ made) := by
  generalize noted : state.noting earlier = start at asks
  induction asks generalizing state earlier with
  | nothing start =>
    subst noted
    exact ⟨.ok [], [], state.world, .finished, fun _ => ⟨[], rfl⟩, by rw [List.append_nil]⟩
  | @failed start token fault after ran =>
    subst noted
    obtain ⟨result, made, world, yields⟩ := scope.yieldsExists token state
    cases ran.symm.trans ((scope.valueFollows token yields).entered earlier)
    exact ⟨.error fault, made, world, .stopped yields, (fun never => nomatch never), rfl⟩
  | @onward start token value middle rest stop after ran later ih =>
    subst noted
    obtain ⟨result, made, world, yields⟩ := scope.yieldsExists token state
    cases ran.symm.trans ((scope.valueFollows token yields).entered earlier)
    obtain ⟨result, more, final, converts, whole, ended⟩ := ih rfl
    refine ⟨_, _, final, .onward yields converts, fun none => ?_, by rw [ended, List.append_assoc]⟩
    obtain ⟨values, rfl⟩ := whole none
    exact ⟨value :: values, rfl⟩

namespace Scope

def Weighs (scope : Scope ω) (state : Nested ω) (condition : Text) (verdict : Except Fault Bool)
    (made : List HostCall) (world : ω) : Prop :=
  ∃ asked result, asked <+: Condition.operandsOf condition ∧
    (∀ holds, verdict = .ok holds → asked = Condition.operandsOf condition ∧ ∃ values, result = .ok values) ∧
    scope.Converts state asked result made world

theorem conditionCourse (scope : Scope ω) (condition : Text) (state : Nested ω) :
    ∃ verdict made world, scope.Weighs state condition verdict made world ∧
      Eval.Course Nested.noting (Condition.evaluate scope.value condition)
        (Condition.evaluate scope.journaled.value condition) state verdict made ⟨state.depth, world⟩ := by
  obtain ⟨made, noted⟩ := scope.journaledRelates.condition condition state
  obtain ⟨verdict, asked, after, account⟩ :=
    Condition.evaluateAccount scope.journaled.value condition (state.noting [])
  have asks : ∃ stop, Condition.Asks scope.journaled.value (state.noting []) asked stop after ∧
      ∀ holds, verdict = .ok holds → asked = Condition.operandsOf condition ∧ stop = none := by
    cases found : verdict with
    | ok holds =>
      obtain ⟨whole, asks⟩ := account.success holds found
      exact ⟨none, asks, fun _ _ => ⟨whole, rfl⟩⟩
    | error fault =>
      rcases account.failure fault found with stopped | ⟨asks, _⟩
      · exact ⟨some fault, stopped, fun _ never => nomatch never⟩
      · exact ⟨none, asks, fun _ never => nomatch never⟩
  obtain ⟨stop, asks, all⟩ := asks
  obtain ⟨result, own, world, converts, whole, rfl⟩ := asks.converts
  -- The condition and its operands fill one journal, so they have made the same calls.
  have same := (noted []).symm.trans account.course.ran
  obtain ⟨found, left⟩ := Prod.mk.inj same
  obtain ⟨rest, rfl⟩ := Nested.notingInjective left
  refine ⟨verdict, made, world, ⟨asked, result, account.front, fun holds given => ?_, converts⟩, ?_, fun earlier => ?_⟩
  · obtain ⟨every, ended⟩ := all holds given
    exact ⟨every, whole ended⟩
  · exact Prod.ext found rest
  · rw [noted earlier, found, rest]

end Scope

namespace Machine
variable {machine : Machine ω} {line label condition : Text}

theorem stepCourse {statement : Statement} {result : Except Fault statement.Finding} {made : List HostCall} {world : ω}
    (running : machine.status = .running) (here : machine.line? machine.counter = some line)
    (parsed : Statement.parse line = .ok statement)
    (course : Eval.Course Nested.noting (machine.scope.findings statement)
      (machine.scope.journaled.findings statement) ⟨machine.depth, machine.world⟩ result made ⟨machine.depth, world⟩) :
    machine.calls = made ∧ machine.step.2.world = world := by
  have active : (machine.noting []).status = .running := running
  have there : (machine.noting []).line? (machine.noting []).counter = some line := here
  have entered : ((machine.noting []).scope.findings statement).run
      ⟨(machine.noting []).depth, (machine.noting []).world⟩ = _ := course.entered []
  obtain ⟨_, _, after⟩ := stepAfter running here
  obtain ⟨_, _, noted⟩ := stepAfter active there
  constructor
  · rw [calls, noted, executeEq, parsed, concludedWorld, entered]
    rfl
  · rw [after, executeEq, parsed, concludedWorld, course.ran]

structure Branches (machine : Machine ω) (line label condition : Text) (verdict : Except Fault Bool) : Prop where
  calls : machine.scope.Weighs ⟨machine.depth, machine.world⟩ condition verdict machine.calls machine.step.2.world
  fails : ∀ fault, verdict = .error fault →
    machine.step.1 = .error ⟨fault, machine.counter, line, .executing⟩ ∧ machine.step.2.store = machine.store
  records : ∀ holds, verdict = .ok holds → ∃ cell, machine.store.get? Store.conditionName = some cell ∧
    machine.step.2.store.get? Store.conditionName = some { cell with data := some (.bool holds) }
  keeps : ∀ name, name ≠ Store.conditionName → machine.step.2.store.get? name = machine.store.get? name
  enters : verdict = .ok true →
    machine.step.1 = .ok machine.step.2.status ∧ machine.step.2.counter = machine.counter + 1
  skips : verdict = .ok false → ∀ number, machine.FirstEnd label number →
    machine.step.1 = .ok machine.step.2.status ∧ machine.step.2.counter = number + 1 ∧
    ∃ text, machine.line? number = some text ∧ Statement.parse text = .ok .nothing
  unended : verdict = .ok false →
    (machine.step.1 = .error ⟨.missingEnd label, machine.counter, line, .executing⟩ ↔
      ∀ number, machine.counter < number → ¬machine.EndsBlock label number)
  stands : ∀ report, machine.step.1 = .error report →
    machine.step.2.status = .failed ∧ machine.step.2.counter = machine.counter

section Opening
variable {after : Machine ω} (running : machine.status = .running) (here : machine.line? machine.counter = some line)
  (parsed : Statement.parse line = .ok (.conditional label condition))
include running here parsed

theorem openingStore : machine.step.2.store =
    match (machine.evaluate (Condition.evaluate machine.scope.value condition)).1.toOption with
    | some result => machine.store.recordCondition result
    | none => machine.store := by
  obtain ⟨_, _, after⟩ := stepAfter running here
  rw [after]
  simp only [execute, parsed]
  exact conditionalStore machine label condition

theorem openingRefused {fault : Fault}
    (ran : machine.evaluate (Condition.evaluate machine.scope.value condition) = (.error fault, after)) :
    machine.step.1 = .error ⟨fault, machine.counter, line, .executing⟩ := by
  have went : machine.execute line = (.error fault, after) := by simp only [execute, parsed, executeConditional, ran]
  rw [stepError running here went]

theorem openingEnters {world : ω}
    (ran : machine.evaluate (Condition.evaluate machine.scope.value condition) = (.ok true, { machine with world })) :
    machine.step.1 = .ok machine.step.2.status ∧ machine.step.2.counter = machine.counter + 1 := by
  have went : machine.execute line =
      (.ok (), { machine with world, store := machine.store.recordCondition true }) := by
    simp only [execute, parsed, executeConditional, ran, if_true]
  rw [stepOk running here went]
  exact ⟨rfl, rfl⟩

theorem openingSkips {number : Nat}
    (ran : machine.evaluate (Condition.evaluate machine.scope.value condition) = (.ok false, after))
    (found : machine.endLine? label = some number) :
    machine.step.1 = .ok machine.step.2.status ∧ machine.step.2.counter = number + 1 := by
  have went : machine.execute line =
      (.ok (), { after with store := machine.store.recordCondition false, counter := number }) := by
    simp only [execute, parsed, executeConditional, ran, found, Bool.false_eq_true, if_false]
  rw [stepOk running here went]
  exact ⟨rfl, rfl⟩

theorem openingUnended
    (ran : machine.evaluate (Condition.evaluate machine.scope.value condition) = (.ok false, after)) :
    machine.step.1 = .error ⟨.missingEnd label, machine.counter, line, .executing⟩ ↔
      ∀ number, machine.counter < number → ¬machine.EndsBlock label number := by
  cases search : machine.endLine? label with
  | none =>
    have went : machine.execute line =
        (.error (.missingEnd label), { after with store := machine.store.recordCondition false }) := by
      simp only [execute, parsed, executeConditional, ran, search, Bool.false_eq_true, if_false]
    rw [stepError running here went]
    exact iff_of_true rfl (endLineMissing search)
  | some number =>
    have first := endLineFirst search
    rw [(openingSkips running here parsed ran search).1]
    exact iff_of_false (by simp) fun missing => missing number first.later first.ends

end Opening

theorem conditionalStep {machine : Machine ω} {line label condition : Text} (reachable : machine.Reachable)
    (running : machine.status = .running) (here : machine.line? machine.counter = some line)
    (parsed : Statement.parse line = .ok (.conditional label condition)) :
    machine.Branches line label condition (machine.evaluate (Condition.evaluate machine.scope.value condition)).1 := by
  obtain ⟨verdict, made, world, weighs, course⟩ :=
    machine.scope.conditionCourse condition ⟨machine.depth, machine.world⟩
  have ran := (courseSettles course).evaluated
  obtain ⟨own, left⟩ := stepCourse running here parsed course
  have store := openingStore running here parsed
  obtain ⟨cell, held, _⟩ := reachable.coherent.condition
  rw [ran] at store ⊢
  constructor
  case calls =>
    rw [own, left]
    exact weighs
  case fails =>
    intro fault failed
    subst failed
    exact ⟨openingRefused running here parsed ran, store⟩
  case records =>
    intro holds found
    subst found
    rw [store]
    exact ⟨cell, held, Store.recordedCell held holds⟩
  case keeps =>
    intro name other
    rw [store]
    cases verdict with
    | error fault => rfl
    | ok holds => exact Store.recordOther holds (Ne.symm other)
  case enters =>
    intro found
    subst found
    exact openingEnters running here parsed ran
  case skips =>
    intro found number first
    subst found
    obtain ⟨text, read, ends⟩ := first.ends
    obtain ⟨went, counter⟩ := openingSkips running here parsed ran (endLineIff.mpr first)
    exact ⟨went, counter, text, read, Statement.endSilent ends⟩
  case unended =>
    intro found
    subst found
    exact openingUnended running here parsed ran
  case stands =>
    intro report failed
    have stops := stepStops reachable.coherent running failed
    exact ⟨stops.status, stops.counter⟩

def skipping : List Text :=
  ["?if $a | (!echo: (1)) = 2".toList, "nonsense".toList, "?if $a | 1".toList, "?end $b".toList, "?end $a".toList]

theorem conditionalStepSkips : ∃ machine : Machine Unit, machine.Reachable ∧
    machine.Branches "?if $a | (!echo: (1)) = 2".toList ['a'] "(!echo: (1)) = 2".toList (.ok false) ∧
    machine.FirstEnd ['a'] 5 ∧ machine.step.2.counter = 6 ∧
    machine.calls = [⟨Call.defaultModule, "echo".toList, [.int 1]⟩] := by
  have accepted : load (Text.joinLines skipping) Settings.default Catalog.empty.load () =
      .ok (ofLines skipping Registry.initial Settings.default ()) := rfl
  have reachable : ((ofLines skipping Registry.initial Settings.default ()).act (echoing "echo".toList)).Reachable :=
    (Reachable.load accepted).register _ _ _
  generalize loaded : (ofLines skipping Registry.initial Settings.default ()).act (echoing "echo".toList) = machine
    at reachable
  have running : machine.status = .running := by
    rw [← loaded]
    decide +kernel
  have here : machine.line? machine.counter = some "?if $a | (!echo: (1)) = 2".toList := by
    rw [← loaded]
    decide +kernel
  have parsed : Statement.parse "?if $a | (!echo: (1)) = 2".toList =
      .ok (.conditional ['a'] "(!echo: (1)) = 2".toList) := by
    decide +kernel
  have branches := conditionalStep reachable running here parsed
  have found : (machine.evaluate (Condition.evaluate machine.scope.value "(!echo: (1)) = 2".toList)).1 = .ok false := by
    rw [← loaded]
    decide +kernel
  have first : machine.FirstEnd ['a'] 5 := by
    apply endLineFirst
    rw [← loaded]
    decide +kernel
  rw [found] at branches
  refine ⟨machine, reachable, branches, first, (branches.skips rfl 5 first).2.1, ?_⟩
  rw [← loaded]
  decide +kernel

end Machine
end Sigil
