import Sigil.Proofs.Evaluation
import Sigil.Proofs.Store

/-! Everything that one step can do. A statement that succeeds is a move, one that fails is a refusal;
what a step preserves is read off these two. -/
namespace Sigil.Machine
variable {ω α : Type} {machine after : Machine ω}

theorem evaluated {allowed : Fault → Prop} {computation : Eval (Nested ω) α} {result : Except Fault α}
    (tame : computation.Tame allowed) (h : machine.evaluate computation = (result, after)) :
    (∃ world, after = { machine with world }) ∧ ∀ fault, result = .error fault → allowed fault := by
  simp only [evaluate, Prod.mk.injEq] at h
  obtain ⟨same, rfl⟩ := h
  have depth := tame.depth ⟨machine.depth, machine.world⟩
  refine ⟨⟨(computation.run ⟨machine.depth, machine.world⟩).2.world, by rw [depth]⟩, ?_⟩
  intro fault failed
  exact tame.faults (Prod.ext (same.trans failed) rfl)

inductive Move (machine : Machine ω) : Statement → Machine ω → Prop where
  | nothing : Move machine .nothing machine
  | call {call value world}
      (ran : machine.evaluate (machine.scope.call call) = (.ok value, { machine with world })) :
      Move machine (.call call) { machine with world }
  | assign {assignment value world store}
      (ran : machine.evaluate (machine.scope.value assignment.value) = (.ok value, { machine with world }))
      (stored : machine.store.assign assignment.name assignment.type assignment.flags value = (.ok (), store)) :
      Move machine (.assign assignment) { machine with world, store }
  | openLoop {name lower upper low high world store}
      (ran : machine.evaluate (bounds machine.scope lower upper) = (.ok (low, high), { machine with world }))
      (opened : machine.store.openLoop name low high (machine.counter + 1) = (.ok (), store)) :
      Move machine (.openLoop name lower upper) { machine with world, store }
  | leave {name store} (done : machine.store.loopBack name = (.ok none, store)) :
      Move machine (.loopBack name) { machine with store }
  | back {name line store} (again : machine.store.loopBack name = (.ok (some line), store)) :
      Move machine (.loopBack name) { machine with store, counter := line - 1 }
  | enter {label condition world}
      (ran : machine.evaluate (Condition.evaluate machine.scope.value condition) =
        (.ok true, { machine with world })) :
      Move machine (.conditional label condition)
        { machine with world, store := machine.store.recordCondition true }
  | skip {label condition world line}
      (ran : machine.evaluate (Condition.evaluate machine.scope.value condition) =
        (.ok false, { machine with world }))
      (found : machine.endLine? label = some line) :
      Move machine (.conditional label condition)
        { machine with world, store := machine.store.recordCondition false, counter := line }

inductive Refusal (machine : Machine ω) : Except SyntaxFault Statement → Fault → Machine ω → Prop where
  | malformed {cause} : Refusal machine (.error cause) (.malformed cause) machine
  | evaluating {statement fault world} (own : fault.Evaluating machine.store) :
      Refusal machine (.ok statement) fault { machine with world }
  | assign {assignment value fault world store}
      (refused : machine.store.assign assignment.name assignment.type assignment.flags value =
        (.error fault, store)) :
      Refusal machine (.ok (.assign assignment)) fault { machine with world, store }
  | openLoop {name lower upper low high fault world store}
      (refused : machine.store.openLoop name low high (machine.counter + 1) = (.error fault, store)) :
      Refusal machine (.ok (.openLoop name lower upper)) fault { machine with world, store }
  | loopBack {name fault store} (refused : machine.store.loopBack name = (.error fault, store)) :
      Refusal machine (.ok (.loopBack name)) fault { machine with store }
  | noEnd {label condition world} (missing : machine.endLine? label = none) :
      Refusal machine (.ok (.conditional label condition)) (.missingEnd label)
        { machine with world, store := machine.store.recordCondition false }

def Result (machine : Machine ω) (statement : Statement) (result : Except Fault Unit) (after : Machine ω) : Prop :=
  match result with
  | .ok () => Move machine statement after
  | .error fault => Refusal machine (.ok statement) fault after

theorem callResult (call : Call) {result : Except Fault Unit}
    (h : machine.executeCall call = (result, after)) : Result machine (.call call) result after := by
  unfold executeCall at h
  split at h <;> cases h <;> rename_i ran
  · obtain ⟨world, rfl⟩ := (evaluated (Scope.tameCall _ call) ran).1
    exact .call ran
  · obtain ⟨⟨world, rfl⟩, own⟩ := evaluated (Scope.tameCall _ call) ran
    exact .evaluating (own _ rfl)

theorem assignmentResult (assignment : Assignment) {result : Except Fault Unit}
    (h : machine.executeAssignment assignment = (result, after)) :
    Result machine (.assign assignment) result after := by
  unfold executeAssignment at h
  split at h <;> rename_i ran
  · cases h
    obtain ⟨⟨world, rfl⟩, own⟩ := evaluated (Scope.tameValue _ assignment.value) ran
    exact .evaluating (own _ rfl)
  · rename_i value _
    obtain ⟨world, rfl⟩ := (evaluated (Scope.tameValue _ assignment.value) ran).1
    cases stored : machine.store.assign assignment.name assignment.type assignment.flags value with
    | mk result store =>
      rw [stored] at h
      cases h
      cases result with
      | ok => exact .assign ran stored
      | error fault => exact .assign stored

theorem openResult (name lower upper : Text) {result : Except Fault Unit}
    (h : machine.executeOpen name lower upper = (result, after)) :
    Result machine (.openLoop name lower upper) result after := by
  unfold executeOpen at h
  split at h <;> rename_i ran
  · cases h
    obtain ⟨⟨world, rfl⟩, own⟩ := evaluated (Scope.tameBounds _ lower upper) ran
    exact .evaluating (own _ rfl)
  · rename_i low high _
    obtain ⟨world, rfl⟩ := (evaluated (Scope.tameBounds _ lower upper) ran).1
    cases opened : machine.store.openLoop name low high (machine.counter + 1) with
    | mk result store =>
      rw [opened] at h
      cases h
      cases result with
      | ok => exact .openLoop ran opened
      | error fault => exact .openLoop opened

theorem backResult (name : Text) {result : Except Fault Unit}
    (h : machine.executeBack name = (result, after)) : Result machine (.loopBack name) result after := by
  unfold executeBack at h
  split at h <;> cases h <;> rename_i tried
  · exact .loopBack tried
  · exact .leave tried
  · exact .back tried

theorem conditionalResult (label condition : Text) {result : Except Fault Unit}
    (h : machine.executeConditional label condition = (result, after)) :
    Result machine (.conditional label condition) result after := by
  unfold executeConditional at h
  split at h
  · rename_i ran
    cases h
    obtain ⟨⟨world, rfl⟩, own⟩ := evaluated (Scope.tameCondition _ condition) ran
    exact .evaluating (own _ rfl)
  · rename_i holds _ ran
    obtain ⟨world, rfl⟩ := (evaluated (Scope.tameCondition _ condition) ran).1
    cases holds with
    | true =>
      cases h
      exact .enter ran
    | false =>
      simp only [Bool.false_eq_true, if_false] at h
      split at h <;> cases h <;> rename_i search
      · exact .noEnd search
      · exact .skip ran search

theorem executed {line : Text} (h : machine.execute line = (.ok (), after)) :
    ∃ statement, Statement.parse line = .ok statement ∧ Move machine statement after := by
  unfold execute at h
  split at h <;> rename_i parsed
  · simp at h
  · exact ⟨_, parsed, callResult _ h⟩
  · exact ⟨_, parsed, assignmentResult _ h⟩
  · exact ⟨_, parsed, openResult _ _ _ h⟩
  · exact ⟨_, parsed, backResult _ h⟩
  · exact ⟨_, parsed, conditionalResult _ _ h⟩
  · cases h
    exact ⟨_, parsed, .nothing⟩

theorem refused {line : Text} {fault : Fault} (h : machine.execute line = (.error fault, after)) :
    Refusal machine (Statement.parse line) fault after := by
  unfold execute at h
  split at h <;> rename_i parsed <;> rw [parsed]
  · cases h
    exact .malformed
  · exact callResult _ h
  · exact assignmentResult _ h
  · exact openResult _ _ _ h
  · exact backResult _ h
  · exact conditionalResult _ _ h
  · simp at h

theorem stepOk {line : Text} (running : machine.status = .running) (here : machine.line? machine.counter = some line)
    (ran : machine.execute line = (.ok (), after)) : machine.step = (.ok after.advance.status, after.advance) := by
  simp only [step, running, here, ran]

theorem stepError {line : Text} {fault : Fault} (running : machine.status = .running)
    (here : machine.line? machine.counter = some line) (ran : machine.execute line = (.error fault, after)) :
    machine.step = (.error ⟨fault, machine.counter, line, .executing⟩, { after with status := .failed }) := by
  simp only [step, running, here, ran]

theorem stepCases {line : Text} (running : machine.status = .running)
    (here : machine.line? machine.counter = some line) :
    (∃ statement after, Statement.parse line = .ok statement ∧ Move machine statement after ∧
      machine.step = (.ok after.advance.status, after.advance)) ∨
    ∃ fault after, Refusal machine (Statement.parse line) fault after ∧
      machine.step = (.error ⟨fault, machine.counter, line, .executing⟩, { after with status := .failed }) := by
  cases h : machine.execute line with
  | mk result after =>
    cases result with
    | ok =>
      obtain ⟨statement, parsed, move⟩ := executed h
      exact .inl ⟨statement, after, parsed, move, stepOk running here h⟩
    | error fault => exact .inr ⟨fault, after, refused h, stepError running here h⟩

theorem stepEnded (ended : machine.status ≠ .running) : machine.step = (.ok machine.status, machine) := by
  unfold step
  split
  · contradiction
  · rfl

theorem Move.keeps {statement : Statement} (move : Move machine statement after) :
    after.lines = machine.lines ∧ after.registry = machine.registry ∧ after.settings = machine.settings ∧
      after.status = machine.status ∧ after.depth = machine.depth := by
  cases move <;> exact ⟨rfl, rfl, rfl, rfl, rfl⟩

theorem Refusal.keeps {parsed : Except SyntaxFault Statement} {fault : Fault}
    (refusal : Refusal machine parsed fault after) :
    after.lines = machine.lines ∧ after.registry = machine.registry ∧ after.settings = machine.settings ∧
      after.counter = machine.counter ∧ after.depth = machine.depth := by
  cases refusal <;> exact ⟨rfl, rfl, rfl, rfl, rfl⟩

theorem stepKeeps (machine : Machine ω) : machine.step.2.lines = machine.lines ∧
    machine.step.2.settings = machine.settings ∧ machine.step.2.depth = machine.depth := by
  unfold step
  split
  · split
    · exact ⟨rfl, rfl, rfl⟩
    · split <;> rename_i ran
      · obtain ⟨_, _, move⟩ := executed ran
        obtain ⟨lines, _, settings, _, depth⟩ := move.keeps
        exact ⟨lines, settings, depth⟩
      · obtain ⟨lines, _, settings, _, depth⟩ := (refused ran).keeps
        exact ⟨lines, settings, depth⟩
  · exact ⟨rfl, rfl, rfl⟩

theorem stepLines (machine : Machine ω) : machine.step.2.lines = machine.lines := (stepKeeps machine).1

theorem stepAfter {line : Text} (running : machine.status = .running)
    (here : machine.line? machine.counter = some line) :
    ∃ counter status, machine.step.2 = { (machine.execute line).2 with counter, status } := by
  cases ran : machine.execute line with
  | mk result after =>
    cases result with
    | ok => exact ⟨_, _, by rw [stepOk running here ran]; rfl⟩
    | error fault => exact ⟨_, _, by rw [stepError running here ran]⟩

theorem Move.coherent {statement : Statement} (move : Move machine statement after)
    (coherent : machine.store.Coherent) : after.store.Coherent := by
  cases move with
  | nothing => exact coherent
  | call ran => exact coherent
  | assign ran stored => exact Store.assignCoherent coherent stored
  | openLoop ran opened => exact Store.openCoherent coherent opened
  | leave done => exact Store.loopBackCoherent coherent done
  | back again => exact Store.loopBackCoherent coherent again
  | enter ran => exact Store.recordCoherent coherent true
  | skip ran found => exact Store.recordCoherent coherent false

theorem Refusal.coherent {parsed : Except SyntaxFault Statement} {fault : Fault}
    (refusal : Refusal machine parsed fault after) (coherent : machine.store.Coherent) :
    after.store.Coherent := by
  cases refusal with
  | malformed => exact coherent
  | evaluating own => exact coherent
  | assign refused => exact Store.assignCoherent coherent refused
  | openLoop refused => exact Store.openCoherent coherent refused
  | loopBack refused => exact Store.loopBackCoherent coherent refused
  | noEnd missing => exact Store.recordCoherent coherent false

theorem Move.valued {statement : Statement} (move : Move machine statement after)
    (valued : machine.store.Valued) : after.store.Valued := by
  have record (result : Bool) : (machine.store.recordCondition result).Valued := by
    unfold Store.recordCondition
    split
    · exact valued
    · exact valued.put rfl
  cases move with
  | nothing => exact valued
  | call ran => exact valued
  | assign ran stored =>
    obtain ⟨value, _, _, rfl⟩ := Store.assigned stored
    exact valued.put rfl
  | openLoop ran opened =>
    obtain ⟨_, rfl⟩ := Store.opened opened
    exact valued.put rfl
  | leave done =>
    obtain ⟨_, _, _, _, _, _, ⟨_, _, rfl⟩ | ⟨_, _, rfl⟩⟩ := Store.loopedBack done
    · exact valued.put rfl
    · exact valued
  | back again =>
    obtain ⟨_, _, _, _, _, _, ⟨_, _, rfl⟩ | ⟨_, _, rfl⟩⟩ := Store.loopedBack again
    · exact valued.put rfl
    · exact valued
  | enter ran => exact record true
  | skip ran found => exact record false

theorem Move.loops {statement : Statement} {holds : Text → LoopState → Prop}
    (move : Move machine statement after) (loops : machine.store.Loops holds)
    (fresh : ∀ name lower upper high, statement = .openLoop name lower upper →
      holds name ⟨high, Int64.ofNat (machine.counter + 1)⟩) : after.store.Loops holds := by
  cases move with
  | nothing => exact loops
  | call ran => exact loops
  | assign ran stored =>
    obtain ⟨value, _, _, rfl⟩ := Store.assigned stored
    exact loops.put fun _ => loops.cell _ _
  | openLoop ran opened =>
    obtain ⟨_, rfl⟩ := Store.opened opened
    refine loops.put fun state loop => ?_
    cases Option.some.inj ((Variable.withLoopLoop _ _).symm.trans loop)
    exact fresh _ _ _ _ rfl
  | leave done => exact loops.loopBack done
  | back again => exact loops.loopBack again
  | enter ran => exact loops.record true
  | skip ran found => exact loops.record false

theorem Refusal.loops {parsed : Except SyntaxFault Statement} {fault : Fault}
    {holds : Text → LoopState → Prop} (refusal : Refusal machine parsed fault after)
    (loops : machine.store.Loops holds) : after.store.Loops holds := by
  cases refusal with
  | malformed => exact loops
  | evaluating own => exact loops
  | assign refused => exact (Store.assignRefused refused).1 ▸ loops.taken _ _
  | openLoop refused => exact (Store.openRefused refused).1 ▸ loops.taken _ _
  | loopBack refused => exact loops.loopBack refused
  | noEnd missing => exact loops.record false

def EndsBlock (machine : Machine ω) (label : Text) (number : Nat) : Prop :=
  ∃ text, machine.line? number = some text ∧ Statement.endLabel text = some label

structure FirstEnd (machine : Machine ω) (label : Text) (number : Nat) : Prop where
  later : machine.counter < number
  ends : machine.EndsBlock label number
  first : ∀ other, machine.counter < other → other < number → ¬machine.EndsBlock label other

theorem endLineFirst {label : Text} {number : Nat} (h : machine.endLine? label = some number) :
    machine.FirstEnd label number := by
  rw [endLine?, endWithinEq _ _ _ _ (by omega)] at h
  obtain ⟨offset, found, rfl⟩ := Option.map_eq_some_iff.mp h
  obtain ⟨inside, ends, first⟩ := List.findIdx?_eq_some_iff_getElem.mp found
  simp only [List.length_drop, Array.length_toList] at inside
  refine ⟨by omega, ⟨machine.lines[machine.counter + offset], ?_, ?_⟩, ?_⟩
  · exact Array.getElem?_eq_getElem (by omega)
  · simpa using ends
  · intro other later before given
    obtain ⟨text, read, ended⟩ := given
    obtain ⟨k, rfl⟩ : ∃ k, other = machine.counter + k + 1 := ⟨other - machine.counter - 1, by omega⟩
    have here : machine.lines[machine.counter + k]? = some text := read
    obtain ⟨_, rfl⟩ := Array.getElem?_eq_some_iff.mp here
    exact first k (by omega) (by simpa using ended)

theorem endLineMissing {label : Text} (h : machine.endLine? label = none) (number : Nat)
    (later : machine.counter < number) : ¬machine.EndsBlock label number := by
  intro given
  obtain ⟨text, read, ended⟩ := given
  rw [endLine?, endWithinEq _ _ _ _ (by omega), Option.map_eq_none_iff, List.findIdx?_eq_none_iff] at h
  obtain ⟨k, rfl⟩ : ∃ k, number = machine.counter + k + 1 := ⟨number - machine.counter - 1, by omega⟩
  have here : machine.lines[machine.counter + k]? = some text := read
  have member : text ∈ machine.lines.toList.drop machine.counter := by
    refine List.mem_of_getElem? (i := k) ?_
    rw [List.getElem?_drop, Array.getElem?_toList, here]
  simpa [ended] using h text member

theorem firstEndUnique {label : Text} {number other : Nat} (one : machine.FirstEnd label number)
    (two : machine.FirstEnd label other) : number = other := by
  rcases Nat.lt_trichotomy number other with before | same | after
  · exact absurd one.ends (two.first number one.later before)
  · exact same
  · exact absurd two.ends (one.first other two.later after)

theorem endLineIff {label : Text} {number : Nat} :
    machine.endLine? label = some number ↔ machine.FirstEnd label number := by
  refine ⟨endLineFirst, fun first => ?_⟩
  cases h : machine.endLine? label with
  | none => exact absurd first.ends (endLineMissing h number first.later)
  | some found => rw [firstEndUnique (endLineFirst h) first]

end Sigil.Machine
