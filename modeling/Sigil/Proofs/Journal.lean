import Sigil.Proofs.Parallel
import Sigil.Proofs.Step
import Sigil.Registry.Journal

/-! The calls that a step makes to host functions. When every function enters its calls in a journal the machine
goes the same way, and the journal grows by the same calls whatever it held before; these are the calls of the
step. -/
namespace Sigil

variable {ω α β : Type}

theorem HostFunction.recordedCall (function : HostFunction ω) (module name : Text) (args : List Value) (world : ω)
    (calls : List HostCall) : (function.recorded module name).call args ⟨world, calls⟩ =
      ((function.call args world).1, ⟨(function.call args world).2, calls ++ [⟨module, name, args⟩]⟩) := rfl

theorem Registry.resolveJournaled (registry : Registry ω) (module name : Text) :
    registry.journaled.resolve module name =
      (registry.resolve module name).map fun function => function.recorded module name := by
  unfold resolve
  rw [journaled, Table.getMapEntries]
  cases registry.modules.get? module with
  | none => rfl
  | some functions =>
    rw [Option.map_some]
    simp only [Table.getMapEntries]
    cases functions.get? name <;> rfl

def Scope.journaled (scope : Scope ω) : Scope (Journal ω) := ⟨scope.store, scope.registry.journaled, scope.limit⟩

def Nested.noting (state : Nested ω) (calls : List HostCall) : Nested (Journal ω) :=
  ⟨state.depth, ⟨state.world, calls⟩⟩

namespace Eval

def Notes (plain : Eval (Nested ω) α) (noted : Eval (Nested (Journal ω)) α) : Prop :=
  ∀ state, ∃ made, ∀ calls,
    noted.run (state.noting calls) = ((plain.run state).1, (plain.run state).2.noting (calls ++ made))

theorem notesPure (a : α) : Notes (pure a : Eval (Nested ω) α) (pure a) :=
  fun _ => ⟨[], fun calls => by rw [List.append_nil]; rfl⟩

theorem notesFail (fault : Fault) : Notes (fail fault : Eval (Nested ω) α) (fail fault) :=
  fun _ => ⟨[], fun calls => by rw [List.append_nil]; rfl⟩

theorem notesBind {first : Eval (Nested ω) α} {first' : Eval (Nested (Journal ω)) α} {next : α → Eval (Nested ω) β}
    {next' : α → Eval (Nested (Journal ω)) β} (head : Notes first first') (tail : ∀ a, Notes (next a) (next' a)) :
    Notes (first >>= next) (first' >>= next') := by
  intro state
  obtain ⟨made, ran⟩ := head state
  simp only [runBind, ran]
  cases first.run state with
  | mk result middle =>
    cases result with
    | error fault => exact ⟨made, fun calls => rfl⟩
    | ok a =>
      obtain ⟨more, went⟩ := tail a middle
      refine ⟨made ++ more, fun calls => ?_⟩
      rw [← List.append_assoc]
      exact went (calls ++ made)

theorem notesDeeper {inner : Eval (Nested ω) α} {inner' : Eval (Nested (Journal ω)) α} (notes : Notes inner inner') :
    Notes (Nested.deeper inner) (Nested.deeper inner') := by
  intro state
  obtain ⟨made, ran⟩ := notes { state with depth := state.depth + 1 }
  refine ⟨made, fun calls => ?_⟩
  have went := ran calls
  simp only [run, Nested.deeper, Nested.noting] at went ⊢
  rw [went]

theorem notesInvoke (scope : Scope ω) (call : Call) {arguments : Eval (Nested ω) (List Value)}
    {arguments' : Eval (Nested (Journal ω)) (List Value)} (notes : Notes arguments arguments') :
    Notes (scope.invoke call arguments) (scope.journaled.invoke call arguments') := by
  unfold Scope.invoke
  rw [Scope.journaled, Registry.resolveJournaled]
  cases scope.registry.resolve call.module call.name with
  | error fault => exact notesFail fault
  | ok function =>
    change Notes (Eval.ofExcept (function.arity.check call.module call.name call.args.length) >>= _)
      (Eval.ofExcept (function.arity.check call.module call.name call.args.length) >>= _)
    cases function.arity.check call.module call.name call.args.length with
    | error fault => exact notesFail fault
    | ok =>
      refine notesBind (notesPure ()) fun _ => notesBind notes fun args state => ?_
      refine ⟨[⟨call.module, call.name, args⟩], fun calls => ?_⟩
      simp only [run, Nested.noting, HostFunction.recordedCall]
      cases function.call args state.world with
      | mk result world => cases result <;> rfl

end Eval

theorem Scope.journaledRelates (scope : Scope ω) : Scope.Relates Eval.Notes scope scope.journaled where
  returns := Eval.notesPure
  fails := Eval.notesFail
  binds := Eval.notesBind
  deepens := Eval.notesDeeper
  checks := by
    intro state
    refine ⟨[], fun calls => ?_⟩
    by_cases full : scope.limit ≤ state.depth <;> simp [Eval.run, checkDepth, journaled, Nested.noting, full]
  invokes call := Eval.notesInvoke scope call
  reads := rfl

namespace Machine

def noting (machine : Machine ω) (calls : List HostCall) : Machine (Journal ω) where
  lines := machine.lines
  counter := machine.counter
  store := machine.store
  registry := machine.registry.journaled
  settings := machine.settings
  status := machine.status
  depth := machine.depth
  world := ⟨machine.world, calls⟩

theorem evaluateNotes {plain : Eval (Nested ω) α} {noted : Eval (Nested (Journal ω)) α} (notes : plain.Notes noted)
    (machine : Machine ω) : ∃ made, ∀ calls, (machine.noting calls).evaluate noted =
      ((machine.evaluate plain).1, (machine.evaluate plain).2.noting (calls ++ made)) := by
  obtain ⟨made, ran⟩ := notes ⟨machine.depth, machine.world⟩
  refine ⟨made, fun calls => ?_⟩
  have went : noted.run ⟨(machine.noting calls).depth, (machine.noting calls).world⟩ = _ := ran calls
  simp only [evaluate, went]
  rfl

theorem executeNotes (machine : Machine ω) (line : Text) : ∃ made, ∀ calls,
    (machine.noting calls).execute line =
      ((machine.execute line).1, (machine.execute line).2.noting (calls ++ made)) := by
  simp only [executeEq]
  cases Statement.parse line with
  | error cause => exact ⟨[], fun calls => by rw [List.append_nil]⟩
  | ok statement =>
    obtain ⟨made, ran⟩ := evaluateNotes (machine.scope.journaledRelates.findings statement) machine
    refine ⟨made, fun calls => ?_⟩
    have went : (machine.noting calls).evaluate ((machine.noting calls).scope.findings statement) = _ := ran calls
    simp only [evaluateThen, went]
    cases machine.evaluate (machine.scope.findings statement) with
    | mk result after => cases result <;> rfl

theorem stepNotes (machine : Machine ω) : ∃ made, ∀ calls,
    (machine.noting calls).step = (machine.step.1, machine.step.2.noting (calls ++ made)) := by
  by_cases running : machine.status = .running
  · have active calls : (machine.noting calls).status = .running := running
    cases here : machine.line? machine.counter with
    | none =>
      refine ⟨[], fun calls => ?_⟩
      have there : (machine.noting calls).line? (machine.noting calls).counter = none := here
      simp only [step, running, here, active, there, List.append_nil]
      rfl
    | some line =>
      have there calls : (machine.noting calls).line? (machine.noting calls).counter = some line := here
      obtain ⟨made, ran⟩ := executeNotes machine line
      refine ⟨made, fun calls => ?_⟩
      have went := ran calls
      cases did : machine.execute line with
      | mk result after =>
        rw [did] at went
        cases result with
        | ok => rw [stepOk running here did, stepOk (active calls) (there calls) went]; rfl
        | error fault => rw [stepError running here did, stepError (active calls) (there calls) went]; rfl
  · refine ⟨[], fun calls => ?_⟩
    have ended : (machine.noting calls).status ≠ .running := running
    rw [stepEnded running, stepEnded ended, List.append_nil]
    rfl

def calls (machine : Machine ω) : List HostCall := (machine.noting []).step.2.world.calls

theorem noted (machine : Machine ω) (earlier : List HostCall) :
    (machine.noting earlier).step = (machine.step.1, machine.step.2.noting (earlier ++ machine.calls)) := by
  obtain ⟨made, ran⟩ := stepNotes machine
  have own : machine.calls = made := by
    rw [calls, ran []]
    rfl
  rw [own]
  exact ran earlier

end Machine
end Sigil
