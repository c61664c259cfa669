import Sigil.Condition
import Sigil.Machine.Basic

/-!
One step of a machine: execute the line under the counter, then move the counter one line on. A
statement that jumps first sets the counter to the line before its target. A fault leaves the counter
on its line and ends the run; a machine that has ended stays as it is.
-/
namespace Sigil.Machine
variable {ω : Type}

def evaluate {α : Type} (machine : Machine ω) (computation : Eval (Nested ω) α) :
    Except Fault α × Machine ω :=
  let (result, after) := computation.run ⟨machine.depth, machine.world⟩
  (result, { machine with depth := after.depth, world := after.world })

def executeCall (machine : Machine ω) (call : Call) : Except Fault Unit × Machine ω :=
  match machine.evaluate (machine.scope.call call) with
  | (.ok _, after) => (.ok (), after)
  | (.error fault, after) => (.error fault, after)

def executeAssignment (machine : Machine ω) (assignment : Assignment) : Except Fault Unit × Machine ω :=
  match machine.evaluate (machine.scope.value assignment.value) with
  | (.error fault, after) => (.error fault, after)
  | (.ok value, after) =>
    let (result, store) := machine.store.assign assignment.name assignment.type assignment.flags value
    (result, { after with store })

def bounds (scope : Scope ω) (lower upper : Text) : Eval (Nested ω) (Int64 × Int64) := do
  let low ← scope.bound lower
  let high ← scope.bound upper
  pure (low, high)

def executeOpen (machine : Machine ω) (name lower upper : Text) : Except Fault Unit × Machine ω :=
  match machine.evaluate (bounds machine.scope lower upper) with
  | (.error fault, after) => (.error fault, after)
  | (.ok (low, high), after) =>
    let (result, store) := machine.store.openLoop name low high (machine.counter + 1)
    (result, { after with store })

def executeBack (machine : Machine ω) (name : Text) : Except Fault Unit × Machine ω :=
  match machine.store.loopBack name with
  | (.error fault, store) => (.error fault, { machine with store })
  | (.ok none, store) => (.ok (), { machine with store })
  | (.ok (some line), store) => (.ok (), { machine with store, counter := line - 1 })

/-- Records the result of the condition before it looks for the end of a skipped block. -/
def executeConditional (machine : Machine ω) (label condition : Text) : Except Fault Unit × Machine ω :=
  match machine.evaluate (Condition.evaluate machine.scope.value condition) with
  | (.error fault, after) => (.error fault, after)
  | (.ok result, after) =>
    let recorded := { after with store := machine.store.recordCondition result }
    if result then (.ok (), recorded)
    else match machine.endLine? label with
      | none => (.error (.missingEnd label), recorded)
      | some line => (.ok (), { recorded with counter := line })

def execute (machine : Machine ω) (line : Text) : Except Fault Unit × Machine ω :=
  match Statement.parse line with
  | .error cause => (.error (.malformed cause), machine)
  | .ok (.call call) => machine.executeCall call
  | .ok (.assign assignment) => machine.executeAssignment assignment
  | .ok (.openLoop name lower upper) => machine.executeOpen name lower upper
  | .ok (.loopBack name) => machine.executeBack name
  | .ok (.conditional label condition) => machine.executeConditional label condition
  | .ok .nothing => (.ok (), machine)

def advance (machine : Machine ω) : Machine ω :=
  { machine with
    counter := machine.counter + 1
    status := if machine.lines.size < machine.counter + 1 then .halted else machine.status }

def step (machine : Machine ω) : Except Report Status × Machine ω :=
  match machine.status with
  | .running =>
    match machine.line? machine.counter with
    | none => (.ok .halted, { machine with status := .halted })
    | some line =>
      match machine.execute line with
      | (.ok (), after) => (.ok after.advance.status, after.advance)
      | (.error fault, after) =>
        (.error ⟨fault, machine.counter, line, .executing⟩, { after with status := .failed })
  | ended => (.ok ended, machine)

def runFor : Nat → Machine ω → Option (Except Report Unit) × Machine ω
  | 0, machine => (none, machine)
  | steps + 1, machine =>
    match machine.step with
    | (.error report, after) => (some (.error report), after)
    | (.ok .running, after) => runFor steps after
    | (.ok _, after) => (some (.ok ()), after)

end Sigil.Machine
