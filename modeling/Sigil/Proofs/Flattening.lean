import Sigil.Proofs.Block
import Sigil.Proofs.Program

/-! What the machine does on the lines of a block, one line at a time, and how its run answers to an outcome of
the structured run: where that is done the machine stands behind the lines of the block, where it fails the
machine fails on the same line, and where its laps do not suffice the machine is still at work. -/
namespace Sigil

namespace Store
variable {store after : Store} {name other : Text}

theorem withCountKeepsLoop (count : Int64) : (store.withCount name count).loop? other = store.loop? other := by
  unfold withCount
  split
  · rename_i cell found
    exact putKeepsLoop (loopHeld found _)
  · rfl

theorem unplacedCount (store : Store) (name : Text) : store.unplaced.count? name = store.count? name := by
  unfold count? unplaced
  rw [mapResumeRead]

theorem unplacedWithCount (store : Store) (name : Text) (count : Int64) :
    store.unplaced.withCount name count = (store.withCount name count).unplaced := by
  unfold withCount unplaced
  rw [mapResumeGet]
  cases store.get? name with
  | none => rfl
  | some cell => exact mapResumePut _ store name { cell with data := some (.int count) }

theorem loopBackCounts (coherent : store.Coherent) {state : LoopState} {line : Nat}
    (looped : store.loop? name = some state) (resumes : state.resumeLine = some line) :
    ∃ current, store.count? name = some current ∧ store.loopBack name =
      if current < state.upper then (.ok (some line), store.withCount name (current + 1)) else (.ok none, store) := by
  obtain ⟨cell, found, loop⟩ := Option.bind_eq_some_iff.mp looped
  obtain ⟨current, data⟩ := (coherent.cells found).counts loop
  have flagged : cell.hasFlag Variable.loopFlag = true :=
    Variable.hasFlagIff.mpr ((coherent.cells found).looped loop).2.2
  refine ⟨current, by simp [count?, read, found, data], ?_⟩
  simp [loopBackView, withCount, found, flagged, loop, data, resumes]

end Store

structure Memory.Held {ω : Type} (memory : Memory ω) (store : Store) : Prop where
  coherent : store.Coherent
  same : store.unplaced = memory.store

namespace Machine
variable {ω : Type} {base : Machine ω} {memory : Memory ω} {store : Store} {number : Nat}

def host (machine : Machine ω) : Host ω := ⟨machine.registry, machine.settings.maxCallDepth⟩

theorem heldAlike (held : memory.Held store) :
    (base.place number store memory.world).scope.Alike (base.host.scope memory) := by
  refine ⟨?_, rfl, rfl⟩
  simp only [Host.scope, ← held.same]
  exact (Store.mapResumeRead _ store).symm

theorem placeEvaluate (flat : base.depth = 0) (number : Nat) (store : Store) (world : ω) {α : Type}
    {allowed : Fault → Prop} {computation : Eval (Nested ω) α} (tame : computation.Tame allowed) :
    (base.place number store world).evaluate computation =
      (((Nested.outermost computation).run world).1,
        base.place number store ((Nested.outermost computation).run world).2) := by
  have depth := tame.depth ⟨0, world⟩
  simp only [evaluate, depth, place, flat]
  rfl

structure Performs {α : Type} (base : Machine ω) (number : Nat) (performed : Except Fault α × Memory ω)
    (executed : Except Fault Unit × Machine ω) (last : Store) : Prop where
  held : performed.2.Held last
  same : executed = (performed.1.map fun _ => (), base.place number last performed.2.world)

theorem callPerforms (flat : base.depth = 0) (held : memory.Held store) (number : Nat) (call : Call) :
    Performs base number (base.host.call memory call)
      ((base.place number store memory.world).executeCall call) store := by
  unfold executeCall Host.call
  rw [Scope.alikeCall (heldAlike held), placeEvaluate flat number store memory.world (Scope.tameCall _ call)]
  cases (Nested.outermost ((base.host.scope memory).call call)).run memory.world with
  | mk result after =>
    cases result with
    | error fault => exact ⟨⟨held.coherent, held.same⟩, rfl⟩
    | ok value => exact ⟨⟨held.coherent, held.same⟩, rfl⟩

theorem assignPerforms (flat : base.depth = 0) (held : memory.Held store) (number : Nat) (assignment : Assignment) :
    ∃ last, Performs base number (base.host.assign memory assignment)
      ((base.place number store memory.world).executeAssignment assignment) last ∧
      ∀ name, last.loop? name = store.loop? name := by
  unfold executeAssignment Host.assign
  rw [Scope.alikeValue (heldAlike held),
    placeEvaluate flat number store memory.world (Scope.tameValue _ assignment.value)]
  cases (Nested.outermost ((base.host.scope memory).value assignment.value)).run memory.world with
  | mk result after =>
    cases result with
    | error fault => exact ⟨store, ⟨⟨held.coherent, held.same⟩, rfl⟩, fun _ => rfl⟩
    | ok value =>
      have moved := Store.mapResumeAssign (fun _ => 0) store assignment.name assignment.type assignment.flags value
      rw [show store.mapResume (fun _ => 0) = memory.store from held.same] at moved
      cases stored : store.assign assignment.name assignment.type assignment.flags value with
      | mk outcome last =>
        rw [stored] at moved
        refine ⟨last, ⟨⟨Store.assignCoherent held.coherent stored, ?_⟩, ?_⟩, fun _ => Store.assignKeepsLoop stored⟩
        · simp only [moved]
          rfl
        · simp only [moved, placeStore, stored]
          cases outcome <;> rfl

theorem openPerforms (flat : base.depth = 0) (held : memory.Held store) (number : Nat) (name lower upper : Text) :
    ∃ last, Performs base number (base.host.openCounter memory name lower upper)
      ((base.place number store memory.world).executeOpen name lower upper) last ∧
      ∀ high, (base.host.openCounter memory name lower upper).1 = .ok high → ∀ other,
        last.loop? other = if name = other then some ⟨high, Int64.ofNat (number + 1)⟩ else store.loop? other := by
  unfold executeOpen Host.openCounter
  rw [Scope.alikeBounds (heldAlike held),
    placeEvaluate flat number store memory.world (Scope.tameBounds _ lower upper)]
  cases (Nested.outermost (bounds (base.host.scope memory) lower upper)).run memory.world with
  | mk result after =>
    cases result with
    | error fault => exact ⟨store, ⟨⟨held.coherent, held.same⟩, rfl⟩, by simp⟩
    | ok pair =>
      have moved := Store.mapResumeOpen (fun _ => 0) store name pair.1 pair.2 (number + 1) 0 rfl
      rw [show store.mapResume (fun _ => 0) = memory.store from held.same] at moved
      cases stored : store.openLoop name pair.1 pair.2 (number + 1) with
      | mk outcome last =>
        rw [stored] at moved
        refine ⟨last, ⟨⟨Store.openCoherent held.coherent stored, ?_⟩, ?_⟩, ?_⟩
        · simp only [moved]
          rfl
        · simp only [moved, placeStore, placeCounter, stored]
          cases outcome <;> rfl
        · intro high opened other
          simp only [moved] at opened
          cases outcome with
          | error fault => simp [Except.map] at opened
          | ok =>
            cases opened
            exact Store.openedLoop stored

def Holds (machine : Machine ω) (first : Nat) (lines : List Text) : Prop :=
  ∀ ⦃index line⦄, lines[index]? = some line → machine.line? (first + index) = some line

theorem Holds.head {first : Nat} {line : Text} {rest : List Text} (holds : base.Holds first (line :: rest)) :
    base.line? first = some line :=
  @holds 0 line rfl

theorem Holds.tail {first : Nat} {line : Text} {rest : List Text} (holds : base.Holds first (line :: rest)) :
    base.Holds (first + 1) rest := by
  intro index found here
  rw [Nat.add_right_comm]
  exact @holds (index + 1) found here

theorem Holds.left {first : Nat} {lines rest : List Text} (holds : base.Holds first (lines ++ rest)) :
    base.Holds first lines := by
  intro index line here
  obtain ⟨inside, _⟩ := List.getElem?_eq_some_iff.mp here
  exact holds (by rwa [List.getElem?_append_left inside])

theorem Holds.right {first : Nat} {lines rest : List Text} (holds : base.Holds first (lines ++ rest)) :
    base.Holds (first + lines.length) rest := by
  intro index line here
  rw [Nat.add_assoc]
  exact holds (by rwa [List.getElem?_append_right (by omega), Nat.add_sub_cancel_left])

/- How the machine answers to an outcome of the structured run: it stands behind the block with the same
memory and with the loops of all other counters as they were, or it fails alike, or it is still at work. -/
def Agrees (base : Machine ω) (laps first last : Nat) (store : Store) (world : ω) (opens : Text → Prop) :
    Option (Outcome ω) → Prop
  | none => (base.place first store world).Lasts laps
  | some (.failed fault number after) =>
    ∃ text final, (base.place first store world).Ends (.error ⟨fault, number, text, .executing⟩) final ∧
      final.store.unplaced = after.store ∧ final.world = after.world
  | some (.done after) =>
    ∃ next, after.Held next ∧ (∀ name, ¬opens name → next.loop? name = store.loop? name) ∧
      (base.place first store world).Leads (base.place last next after.world)

section Agreement
variable {laps first middle last : Nat} {next : Store} {world later : ω} {opens : Text → Prop}
  {outcome : Option (Outcome ω)}

theorem Agrees.mono {fewer : Nat} {more : Text → Prop} (agrees : base.Agrees laps first last store world opens outcome)
    (less : fewer ≤ laps) (wider : ∀ name, opens name → more name) :
    base.Agrees fewer first last store world more outcome := by
  rcases outcome with _ | ⟨after⟩ | ⟨fault, number, after⟩
  · exact lastsLess less agrees
  · obtain ⟨next, held, kept, leads⟩ := agrees
    exact ⟨next, held, fun name closed => kept name fun opened => closed (wider name opened), leads⟩
  · exact agrees

theorem Agrees.lead (leads : (base.place first store world).Leads (base.place middle next later))
    (kept : ∀ name, ¬opens name → next.loop? name = store.loop? name)
    (agrees : base.Agrees laps middle last next later opens outcome) :
    base.Agrees laps first last store world opens outcome := by
  rcases outcome with _ | ⟨after⟩ | ⟨fault, number, after⟩
  · exact leads.lasts agrees
  · obtain ⟨final, held, same, onward⟩ := agrees
    exact ⟨final, held, fun name closed => (same name closed).trans (kept name closed), leads.trans onward⟩
  · obtain ⟨text, final, ends, left⟩ := agrees
    exact ⟨text, final, leads.ends.mpr ends, left⟩

theorem Agrees.step (step : (base.place first store world).step =
      (.ok (base.place middle next later).status, base.place middle next later)) (inside : middle ≤ base.lines.size)
    (kept : ∀ name, ¬opens name → next.loop? name = store.loop? name)
    (agrees : base.Agrees laps middle last next later opens outcome) :
    base.Agrees (laps + 1) first last store world opens outcome := by
  rcases outcome with _ | ⟨after⟩ | ⟨fault, number, after⟩
  · exact lastsStep step (placeRunning inside) agrees
  · have onward : base.Agrees laps first last store world opens (some (.done after)) :=
      Agrees.lead (leadsStep step) kept agrees
    exact onward
  · have onward : base.Agrees laps first last store world opens (some (.failed fault number after)) :=
      Agrees.lead (leadsStep step) kept agrees
    exact onward

theorem Agrees.andThen {rest : Memory ω → Option (Outcome ω)}
    (agrees : base.Agrees laps first middle store world opens outcome)
    (onward : ∀ after next, after.Held next → (∀ name, ¬opens name → next.loop? name = store.loop? name) →
      base.Agrees laps middle last next after.world opens (rest after)) :
    base.Agrees laps first last store world opens (Outcome.andThen outcome rest) := by
  rcases outcome with _ | ⟨after⟩ | ⟨fault, number, after⟩
  · exact agrees
  · obtain ⟨next, held, kept, leads⟩ := agrees
    exact Agrees.lead leads kept (onward after next held kept)
  · exact agrees

theorem Agrees.onward (agrees : base.Agrees laps first middle store world opens outcome)
    (leads : ∀ next later, (base.place middle next later).Leads (base.place last next later)) :
    base.Agrees laps first last store world opens outcome := by
  rcases outcome with _ | ⟨after⟩ | ⟨fault, number, after⟩
  · exact agrees
  · obtain ⟨next, held, kept, there⟩ := agrees
    exact ⟨next, held, kept, there.trans (leads next after.world)⟩
  · exact agrees

end Agreement

section Lines
variable {α : Type} {line : Text} {last : Store} {after : Memory ω} {world : ω}

theorem Performs.steps {a : α} (here : base.line? number = some line)
    (performs : Performs base number (.ok a, after) ((base.place number store world).execute line) last) :
    (base.place number store world).step =
      (.ok (base.place (number + 1) last after.world).status, base.place (number + 1) last after.world) :=
  placeStep here performs.same

theorem Performs.fails {fault : Fault} (here : base.line? number = some line)
    (performs : Performs base number ((.error fault : Except Fault α), after)
      ((base.place number store world).execute line) last)
    (laps behind : Nat) (opens : Text → Prop) :
    base.Agrees laps number behind store world opens (some (.failed fault number after)) :=
  ⟨line, _, endsFault (placeFault here performs.same), performs.held.same, rfl⟩

theorem simplePerforms (flat : base.depth = 0) (held : memory.Held store) (number : Nat) {text : Text}
    (simple : (Statement.parse text).toOption.all Statement.isSimple = true) :
    ∃ last, Performs base number (base.host.perform memory text)
      ((base.place number store memory.world).execute text) last ∧ ∀ name, last.loop? name = store.loop? name := by
  unfold execute Host.perform
  cases read : Statement.parse text with
  | error cause => exact ⟨store, ⟨held, rfl⟩, fun _ => rfl⟩
  | ok statement =>
    rw [read] at simple
    cases statement with
    | call call => exact ⟨store, callPerforms flat held number call, fun _ => rfl⟩
    | assign assignment => exact assignPerforms flat held number assignment
    | openLoop name lower upper => simp [Except.toOption, Statement.isSimple] at simple
    | loopBack name => simp [Except.toOption, Statement.isSimple] at simple
    | conditional label condition => simp [Except.toOption, Statement.isSimple] at simple
    | nothing => exact ⟨store, ⟨held, rfl⟩, fun _ => rfl⟩

theorem openingPerforms (flat : base.depth = 0) (held : memory.Held store) (number : Nat)
    {text name lower upper : Text} (opens : Statement.parse text = .ok (.openLoop name lower upper)) :
    ∃ last, Performs base number (base.host.openCounter memory name lower upper)
      ((base.place number store memory.world).execute text) last ∧
      ∀ high, (base.host.openCounter memory name lower upper).1 = .ok high → ∀ other,
        last.loop? other = if name = other then some ⟨high, Int64.ofNat (number + 1)⟩ else store.loop? other := by
  simp only [execute, opens]
  exact openPerforms flat held number name lower upper

end Lines

section Conditional
variable {text label condition : Text}

theorem recordedHeld (held : memory.Held store) (result : Bool) (world : ω) :
    (⟨memory.store.recordCondition result, world⟩ : Memory ω).Held (store.recordCondition result) := by
  refine ⟨Store.recordCoherent held.coherent result, ?_⟩
  rw [← held.same]
  exact (Store.mapResumeRecord _ store result).symm

theorem conditionalPerforms (flat : base.depth = 0) (held : memory.Held store)
    (parsed : Statement.parse text = .ok (.conditional label condition)) {closing : Nat}
    (found : (base.place number store memory.world).endLine? label = some closing) :
    match base.host.test memory condition with
    | (.error fault, after) => after.Held store ∧
      (base.place number store memory.world).execute text = (.error fault, base.place number store after.world)
    | (.ok result, after) => after.Held (store.recordCondition result) ∧
      (base.place number store memory.world).execute text =
        (.ok (), { base.place number store memory.world with
          counter := if result then number else closing
          store := store.recordCondition result
          world := after.world }) := by
  simp only [execute, parsed, executeConditional, Host.test]
  rw [Scope.alikeValue (heldAlike held),
    placeEvaluate flat number store memory.world (Scope.tameCondition _ condition)]
  cases (Nested.outermost (Condition.evaluate (base.host.scope memory).value condition)).run memory.world with
  | mk result after =>
    cases result with
    | error fault => exact ⟨⟨held.coherent, held.same⟩, rfl⟩
    | ok result =>
      refine ⟨recordedHeld held result after, ?_⟩
      cases result with
      | true => rfl
      | false =>
        simp only [found]
        rfl

end Conditional

section Loop
variable {closing name : Text} {first : Nat} {high : Int64}

theorem backSteps (held : memory.Held store) (here : base.line? number = some closing)
    (closes : Statement.parse closing = .ok (.loopBack name)) (small : first + 1 < 2 ^ 63)
    (looped : store.loop? name = some ⟨high, Int64.ofNat (first + 1)⟩) :
    ∃ current, memory.store.count? name = some current ∧
      (current < high →
        ({ memory with store := memory.store.withCount name (current + 1) } : Memory ω).Held
          (store.withCount name (current + 1)) ∧
        (base.place number store memory.world).step =
          (.ok (base.place (first + 1) (store.withCount name (current + 1)) memory.world).status,
            base.place (first + 1) (store.withCount name (current + 1)) memory.world)) ∧
      (¬current < high → (base.place number store memory.world).step =
        (.ok (base.place (number + 1) store memory.world).status, base.place (number + 1) store memory.world)) := by
  have resumes : LoopState.resumeLine ⟨high, Int64.ofNat (first + 1)⟩ = some (first + 1) :=
    resumeLineOf (Int64.toInt_ofNat_of_lt small)
  obtain ⟨current, count, back⟩ := Store.loopBackCounts held.coherent looped resumes
  refine ⟨current, by rw [← held.same, Store.unplacedCount, count], fun below => ⟨?_, ?_⟩, fun done => ?_⟩
  · rw [if_pos below] at back
    exact ⟨Store.loopBackCoherent held.coherent back, by rw [← held.same, Store.unplacedWithCount]⟩
  · rw [if_pos below] at back
    refine placeStep here ?_
    simp only [execute, closes, executeBack, placeStore, back]
    rfl
  · rw [if_neg done] at back
    refine placeStep here ?_
    simp only [execute, closes, executeBack, placeStore, back]
    rfl

/- The induction is on the laps that are left; each ends with a step on the closing line. -/
theorem repeatedAgrees {laps size : Nat} {opens : Text → Prop} {body : Memory ω → Option (Outcome ω)}
    (bodyAgrees : ∀ memory store, memory.Held store →
      base.Agrees laps (first + 1) (first + 1 + size) store memory.world opens (body memory))
    (here : base.line? (first + 1 + size) = some closing) (closes : Statement.parse closing = .ok (.loopBack name))
    (closed : ¬opens name) (small : first + 1 < 2 ^ 63) (left : Nat) (enough : left ≤ laps)
    (held : memory.Held store) (looped : store.loop? name = some ⟨high, Int64.ofNat (first + 1)⟩) :
    base.Agrees left (first + 1) (first + 1 + size + 1) store memory.world opens
      (Block.repeated body name high left memory) := by
  induction left generalizing memory store with
  | zero => rfl
  | succ left ih =>
    have once := (bodyAgrees memory store held).mono enough fun _ => id
    refine once.andThen fun after next held kept => ?_
    have carried := (kept name closed).trans looped
    obtain ⟨current, count, again, done⟩ := backSteps held here closes small carried
    rw [count]
    by_cases below : current < high
    · simp only [below, if_true]
      obtain ⟨counted, step⟩ := again below
      have inside : first + 1 ≤ base.lines.size := by
        have place := (insideLine here).2
        omega
      refine Agrees.step step inside (fun _ _ => Store.withCountKeepsLoop _) ?_
      exact ih (by omega) counted ((Store.withCountKeepsLoop _).trans carried)
    · simp only [below, if_false]
      exact Agrees.lead (leadsStep (done below)) (fun _ _ => rfl) ⟨next, held, fun _ _ => rfl, leadsRefl _⟩

end Loop

end Machine
end Sigil
